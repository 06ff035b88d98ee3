import Mathlib.Data.List.Count
import StashiWallet.Runs

/-!
# Rotation of diversifiers

Each address a wallet gives out has an index. The rotation service keeps a counter and the usage of
the indices it has seen, and answers a request by the policy in force: a fresh index, or the
counter's own index until it received funds or was shared often enough. A fresh index is found by
counting on past those that `should_avoid` excludes.
-/

namespace StashiWallet

/-- `AddressUsage`, without times and label. -/
structure AddressUsage where
  shareCount : UInt32
  hasReceived : Bool
  hasSpent : Bool
deriving DecidableEq, Repr

namespace AddressUsage

def new : AddressUsage := ⟨0, false, false⟩

def markShared (usage : AddressUsage) : AddressUsage :=
  { usage with shareCount := usage.shareCount + 1 }

def markReceived (usage : AddressUsage) : AddressUsage := { usage with hasReceived := true }

def markSpent (usage : AddressUsage) : AddressUsage := { usage with hasSpent := true }

def shouldAvoid (usage : AddressUsage) : Bool :=
  usage.hasReceived || usage.hasSpent || decide (1 < usage.shareCount)

end AddressUsage

inductive RotationPolicy where
  | alwaysFresh
  | reuseUntilReceived
  | reuseUntilShared (maxShares : UInt32)
  | manual
deriving DecidableEq, Repr

structure DiversifierRotationService where
  currentIndex : UInt32
  highestUsed : UInt32
  usedIndices : List UInt32
  usage : UInt32 → Option AddressUsage
  policy : RotationPolicy

/-- The index is known and `should_avoid` excludes it. -/
def avoided (usage : UInt32 → Option AddressUsage) (index : UInt32) : Bool :=
  (usage index).any AddressUsage.shouldAvoid

/-- The loop of `next_fresh_index`, for so many indices. -/
def nextFresh (usage : UInt32 → Option AddressUsage) : Nat → UInt32 → Option UInt32
  | 0, _ => none
  | fuel + 1, current =>
    if avoided usage current then nextFresh usage fuel (current + 1) else some current

namespace DiversifierRotationService

def restore (currentIndex highestUsed : UInt32) (usedIndices : List UInt32)
    (policy : RotationPolicy) : DiversifierRotationService where
  currentIndex := currentIndex
  highestUsed := highestUsed
  usedIndices := usedIndices
  usage _ := none
  policy := policy

def new (policy : RotationPolicy) : DiversifierRotationService := restore 0 0 [] policy

variable (service : DiversifierRotationService)

/-- `next_fresh_index`. After all indices the loop meets the same ones again and does not end. -/
def nextFreshIndex : Option (UInt32 × DiversifierRotationService) :=
  (nextFresh service.usage 4294967296 service.currentIndex).map fun index =>
    (index, { service with
      currentIndex := index + 1
      highestUsed := max service.highestUsed index })

/-- The entry of an index is changed, or made and changed. -/
def track (index : UInt32) (change : AddressUsage → AddressUsage) : DiversifierRotationService :=
  { service with
    usedIndices := service.usedIndices.insert index
    usage := Function.update service.usage index
      (some (change ((service.usage index).getD AddressUsage.new))) }

def markShared (index : UInt32) : DiversifierRotationService :=
  service.track index AddressUsage.markShared

def markReceived (index : UInt32) : DiversifierRotationService :=
  service.track index AddressUsage.markReceived

def markSpent (index : UInt32) : DiversifierRotationService :=
  service.track index AddressUsage.markSpent

def advanceTo (index : UInt32) : DiversifierRotationService :=
  { service with
    currentIndex := index
    highestUsed := max service.highestUsed index }

/-- The index a request is answered with, and the service that found it. -/
def answer : Option (UInt32 × DiversifierRotationService) :=
  let current := service.currentIndex
  match service.policy with
  | .alwaysFresh => service.nextFreshIndex
  | .reuseUntilReceived =>
    match service.usage current with
    | some usage => if usage.hasReceived then service.nextFreshIndex else some (current, service)
    | none => some (current, service)
  | .reuseUntilShared maxShares =>
    match service.usage current with
    | some usage =>
      if decide (maxShares ≤ usage.shareCount) || usage.hasReceived then service.nextFreshIndex
      else some (current, service)
    | none => some (current, service)
  | .manual => some (current, service)

/-- `request_address`; nothing when it does not return. -/
def requestAddress : Option (UInt32 × DiversifierRotationService) :=
  service.answer.map fun (index, after) => (index, after.markShared index)

end DiversifierRotationService

/-! ## What happens to a service -/

inductive RotationEvent where
  | request
  | markShared (index : UInt32)
  | markReceived (index : UInt32)
  | markSpent (index : UInt32)
  | setPolicy (policy : RotationPolicy)
  | advanceTo (index : UInt32)
deriving DecidableEq, Repr

/-- A service, with what was seen of it: the indices it answered with, those and the ones that were
shared, and the answer to the last request if it was made under `ReuseUntilReceived` and nothing
but shares and spends happened since. -/
structure Rotation where
  service : DiversifierRotationService
  answers : List UInt32
  handedOut : List UInt32
  held : Option UInt32

namespace Rotation

/-- What a service starts from was handed out before. -/
def start (service : DiversifierRotationService) : Rotation :=
  ⟨service, [], service.usedIndices, none⟩

variable (s : Rotation)

/-- One event. A request that does not return changes nothing. -/
def step (s : Rotation) : RotationEvent → Rotation
  | .request =>
    match s.service.requestAddress with
    | some (index, after) =>
      { service := after
        answers := index :: s.answers
        handedOut := index :: s.handedOut
        held := if s.service.policy = .reuseUntilReceived then some index else none }
    | none => s
  | .markShared index =>
    { s with service := s.service.markShared index, handedOut := index :: s.handedOut }
  | .markReceived index => { s with service := s.service.markReceived index, held := none }
  | .markSpent index => { s with service := s.service.markSpent index }
  | .setPolicy policy =>
    { s with service := { s.service with policy := policy }, held := none }
  | .advanceTo index => { s with service := s.service.advanceTo index, held := none }

/-- What the policy in force promises of an answer. -/
def Promised (index : UInt32) : Prop :=
  match s.service.policy with
  | .alwaysFresh => index ∉ s.handedOut
  | .reuseUntilReceived => ∀ before, s.held = some before → index = before
  | .reuseUntilShared maxShares => s.answers.count index < maxShares.toNat
  | .manual => True

/-- A request is answered with an index that is as the policy in force promises. -/
def Keeps : RotationEvent → Prop
  | .request => ∀ index after, s.service.requestAddress = some (index, after) → s.Promised index
  | _ => True

/-- Counting on from the current index, the first index that is not used comes before every other
one that `should_avoid` lets pass. -/
def FreshAhead (service : DiversifierRotationService) : Prop :=
  ∃ k < 4294967296, service.currentIndex + UInt32.ofNat k ∉ service.usedIndices ∧
    ∀ j < k, avoided service.usage (service.currentIndex + UInt32.ofNat j) = true

/-- The times an index was shared, as the service counts them. -/
def shares (service : DiversifierRotationService) (index : UInt32) : UInt32 :=
  ((service.usage index).getD AddressUsage.new).shareCount

def received (service : DiversifierRotationService) (index : UInt32) : Bool :=
  ((service.usage index).getD AddressUsage.new).hasReceived

/-- What a service needs before an event to keep what the policies promise: a current index that may
be answered or a fresh one ahead, and counts that do not overflow. -/
def Sound (s : Rotation) : RotationEvent → Prop
  | .request =>
    match s.service.policy with
    | .alwaysFresh => FreshAhead s.service
    | .reuseUntilReceived =>
      received s.service s.service.currentIndex = false ∧
        shares s.service s.service.currentIndex ≠ 4294967295
    | .reuseUntilShared maxShares =>
      1 < maxShares ∨ (maxShares = 1 ∧
        (shares s.service s.service.currentIndex = 0 ∧
            received s.service s.service.currentIndex = false ∨
          FreshAhead s.service))
    | .manual => shares s.service s.service.currentIndex ≠ 4294967295
  | .markShared index => shares s.service index ≠ 4294967295
  | _ => True

end Rotation

/-! ## Fresh indices -/

section Fresh

variable {usage : UInt32 → Option AddressUsage}

theorem avoided_of_nextFresh {fuel : Nat} {current index : UInt32}
    (h : nextFresh usage fuel current = some index) : avoided usage index = false := by
  induction fuel generalizing current with
  | zero => cases h
  | succ fuel ih =>
    unfold nextFresh at h
    split at h
    · exact ih h
    · rename_i hpasses
      obtain rfl := Option.some.inj h
      exact Bool.eq_false_iff.mpr hpasses

theorem add_succ (current : UInt32) (k : Nat) :
    current + 1 + UInt32.ofNat k = current + UInt32.ofNat (k + 1) := by
  rw [UInt32.ofNat_add, UInt32.add_assoc, UInt32.add_comm 1]
  rfl

/-- The loop passes over what is avoided. -/
theorem nextFresh_eq_some {fuel k : Nat} {current : UInt32} (hfuel : k < fuel)
    (hpassed : ∀ j < k, avoided usage (current + UInt32.ofNat j) = true)
    (hfound : avoided usage (current + UInt32.ofNat k) = false) :
    nextFresh usage fuel current = some (current + UInt32.ofNat k) := by
  induction k generalizing fuel current with
  | zero =>
    obtain ⟨fuel, rfl⟩ := Nat.exists_eq_succ_of_ne_zero (Nat.ne_of_gt hfuel)
    have hzero : current + UInt32.ofNat 0 = current := UInt32.add_zero current
    rw [hzero] at hfound ⊢
    unfold nextFresh
    rw [if_neg (by simp [hfound])]
  | succ k ih =>
    obtain ⟨fuel, rfl⟩ := Nat.exists_eq_succ_of_ne_zero (Nat.ne_of_gt (Nat.zero_lt_of_lt hfuel))
    have hfirst := hpassed 0 (Nat.succ_pos k)
    have hzero : current + UInt32.ofNat 0 = current := UInt32.add_zero current
    rw [hzero] at hfirst
    unfold nextFresh
    rw [if_pos hfirst, ← add_succ]
    refine ih (Nat.lt_of_succ_lt_succ hfuel) (fun j hj => ?_) ?_
    · rw [add_succ]
      exact hpassed (j + 1) (Nat.succ_lt_succ hj)
    · rw [add_succ]
      exact hfound

end Fresh

namespace DiversifierRotationService

variable {service after : DiversifierRotationService} {index : UInt32}

/-- An answer is the current index, or the first one after it that is let pass. -/
theorem answer_cases (h : service.answer = some (index, after)) :
    (index = service.currentIndex ∧ after = service) ∨
      (nextFresh service.usage 4294967296 service.currentIndex = some index ∧
        after = { service with
          currentIndex := index + 1
          highestUsed := max service.highestUsed index }) := by
  have hstays : ∀ {service : DiversifierRotationService},
      some (service.currentIndex, service) = some (index, after) →
      index = service.currentIndex ∧ after = service := by
    intro service hsame
    obtain ⟨rfl, rfl⟩ := Prod.mk.inj (Option.some.inj hsame)
    exact ⟨rfl, rfl⟩
  have hfresh : service.nextFreshIndex = some (index, after) →
      nextFresh service.usage 4294967296 service.currentIndex = some index ∧
        after = { service with
          currentIndex := index + 1
          highestUsed := max service.highestUsed index } := by
    intro hnext
    obtain ⟨found, hfound, hsame⟩ := Option.map_eq_some_iff.mp hnext
    obtain ⟨rfl, rfl⟩ := Prod.mk.inj hsame
    exact ⟨hfound, rfl⟩
  unfold answer at h
  dsimp only at h
  split at h
  · exact .inr (hfresh h)
  · split at h
    · split at h
      · exact .inr (hfresh h)
      · exact .inl (hstays h)
    · exact .inl (hstays h)
  · split at h
    · split at h
      · exact .inr (hfresh h)
      · exact .inl (hstays h)
    · exact .inl (hstays h)
  · exact .inl (hstays h)

theorem requestAddress_eq_some {result : DiversifierRotationService} :
    service.requestAddress = some (index, result) ↔
      ∃ after, service.answer = some (index, after) ∧ result = after.markShared index := by
  unfold requestAddress
  constructor
  · intro h
    obtain ⟨⟨found, after⟩, hanswer, hsame⟩ := Option.map_eq_some_iff.mp h
    obtain ⟨rfl, rfl⟩ := Prod.mk.inj hsame
    exact ⟨after, hanswer, rfl⟩
  · rintro ⟨after, hanswer, rfl⟩
    rw [hanswer]
    rfl

end DiversifierRotationService

namespace Rotation

/-! ## What the service knows of its history -/

/-- The service's own records against what happened. -/
structure Tracked (s : Rotation) : Prop where
  known : ∀ index, s.service.usage index ≠ none → index ∈ s.service.usedIndices
  used : ∀ index ∈ s.handedOut, index ∈ s.service.usedIndices
  answered : ∀ index ∈ s.answers, index ∈ s.handedOut
  counted : ∀ index, s.answers.count index ≤ (shares s.service index).toNat
  held : ∀ index, s.held = some index → s.service.policy = .reuseUntilReceived ∧
    s.service.currentIndex = index ∧ received s.service index = false

theorem tracked_start (currentIndex highestUsed : UInt32) (usedIndices : List UInt32)
    (policy : RotationPolicy) :
    (start (.restore currentIndex highestUsed usedIndices policy)).Tracked where
  known _ h := absurd rfl h
  used _ h := h
  answered _ h := nomatch h
  counted _ := Nat.zero_le _
  held _ h := nomatch h

variable {s : Rotation} {service : DiversifierRotationService} {index : UInt32}

variable {change : AddressUsage → AddressUsage}

@[simp]
theorem shares_track_self :
    shares (service.track index change) index =
      (change ((service.usage index).getD AddressUsage.new)).shareCount := by
  simp [shares, DiversifierRotationService.track]

theorem shares_track_of_ne {other : UInt32} (h : other ≠ index) :
    shares (service.track index change) other = shares service other := by
  simp [shares, DiversifierRotationService.track, h]

theorem received_markShared (other : UInt32) :
    received (service.markShared index) other = received service other := by
  unfold received DiversifierRotationService.markShared DiversifierRotationService.track
  by_cases h : other = index
  · subst h
    simp [AddressUsage.markShared]
  · simp [h]

theorem received_markSpent (other : UInt32) :
    received (service.markSpent index) other = received service other := by
  unfold received DiversifierRotationService.markSpent DiversifierRotationService.track
  by_cases h : other = index
  · subst h
    simp [AddressUsage.markSpent]
  · simp [h]

theorem mem_usedIndices_track {other : UInt32} :
    other ∈ (service.track index change).usedIndices ↔
      other = index ∨ other ∈ service.usedIndices := List.mem_insert_iff

/-- An index that is let pass was shared at most once, and one that is not used was never. -/
theorem shares_le_one (h : avoided service.usage index = false) : shares service index ≤ 1 := by
  unfold avoided at h
  unfold shares
  cases husage : service.usage index with
  | none => exact (by decide : (0 : UInt32) ≤ 1)
  | some usage =>
    rw [husage] at h
    have hpasses : AddressUsage.shouldAvoid usage = false := h
    simp only [AddressUsage.shouldAvoid, Bool.or_eq_false_iff, decide_eq_false_iff_not] at hpasses
    exact UInt32.not_lt.mp hpasses.2

theorem Tracked.avoided_of_not_used (h : s.Tracked) (hnew : index ∉ s.service.usedIndices) :
    avoided s.service.usage index = false := by
  have hnone : s.service.usage index = none := by
    by_contra hsome
    exact hnew (h.known index hsome)
  unfold avoided
  rw [hnone]
  rfl

/-- A fresh index that was looked for where one is ahead was never handed out. -/
theorem Tracked.fresh (h : s.Tracked) (hahead : FreshAhead s.service)
    (hfound : nextFresh s.service.usage 4294967296 s.service.currentIndex = some index) :
    index ∉ s.handedOut := by
  obtain ⟨k, hk, hnew, hpassed⟩ := hahead
  have hfirst := nextFresh_eq_some hk hpassed (h.avoided_of_not_used hnew)
  rw [hfirst] at hfound
  obtain rfl := Option.some.inj hfound
  exact fun hhanded => hnew (h.used _ hhanded)

theorem answer_alwaysFresh (h : service.policy = .alwaysFresh) :
    service.answer = service.nextFreshIndex := by
  unfold DiversifierRotationService.answer
  rw [h]

/-- The current index is reused until it receives funds. -/
theorem answer_reuseUntilReceived (h : service.policy = .reuseUntilReceived)
    (hreceived : received service service.currentIndex = false) :
    service.answer = some (service.currentIndex, service) := by
  unfold received at hreceived
  unfold DiversifierRotationService.answer
  rw [h]
  dsimp only
  cases husage : service.usage service.currentIndex with
  | none => rfl
  | some usage =>
    rw [husage] at hreceived
    have hnot : ¬ usage.hasReceived = true := Bool.eq_false_iff.mp hreceived
    exact if_neg hnot

theorem answer_manual (h : service.policy = .manual) :
    service.answer = some (service.currentIndex, service) := by
  unfold DiversifierRotationService.answer
  rw [h]

variable {maxShares : UInt32}

/-- An index that was not shared is reused once at least. -/
theorem answer_unshared (h : service.policy = .reuseUntilShared maxShares) (hpos : 0 < maxShares)
    (hshares : shares service service.currentIndex = 0)
    (hreceived : received service service.currentIndex = false) :
    service.answer = some (service.currentIndex, service) := by
  unfold shares at hshares
  unfold received at hreceived
  unfold DiversifierRotationService.answer
  rw [h]
  dsimp only
  cases husage : service.usage service.currentIndex with
  | none => rfl
  | some usage =>
    rw [husage] at hshares hreceived
    have hcount : usage.shareCount = 0 := hshares
    have hnot : usage.hasReceived = false := hreceived
    refine if_neg ?_
    rw [hcount, hnot, Bool.or_false, decide_eq_true_eq]
    exact UInt32.not_le.mpr hpos

/-- An index is reused while it was not shared often enough. -/
theorem shares_of_answer {after : DiversifierRotationService}
    (h : service.policy = .reuseUntilShared maxShares) (hpos : 0 < maxShares)
    (hanswer : service.answer = some (index, after)) :
    shares service index < maxShares ∨
      nextFresh service.usage 4294967296 service.currentIndex = some index := by
  have hfresh : service.nextFreshIndex = some (index, after) →
      nextFresh service.usage 4294967296 service.currentIndex = some index := by
    intro hnext
    obtain ⟨found, hfound, hsame⟩ := Option.map_eq_some_iff.mp hnext
    obtain ⟨rfl, -⟩ := Prod.mk.inj hsame
    exact hfound
  unfold DiversifierRotationService.answer at hanswer
  rw [h] at hanswer
  dsimp only at hanswer
  unfold shares
  split at hanswer
  · rename_i usage husage
    split at hanswer
    · exact .inr (hfresh hanswer)
    · rename_i hreuse
      obtain ⟨rfl, -⟩ := Prod.mk.inj (Option.some.inj hanswer)
      rw [Bool.or_eq_true, not_or, decide_eq_true_eq, UInt32.not_le] at hreuse
      left
      rw [husage]
      exact hreuse.1
  · rename_i hnone
    obtain ⟨rfl, -⟩ := Prod.mk.inj (Option.some.inj hanswer)
    left
    rw [hnone]
    exact hpos

theorem nextFresh_of_answer {after : DiversifierRotationService}
    (h : service.policy = .alwaysFresh) (hanswer : service.answer = some (index, after)) :
    nextFresh service.usage 4294967296 service.currentIndex = some index := by
  rw [answer_alwaysFresh h] at hanswer
  obtain ⟨found, hfound, hsame⟩ := Option.map_eq_some_iff.mp hanswer
  obtain ⟨rfl, -⟩ := Prod.mk.inj hsame
  exact hfound

theorem pos_of_sound {P : Prop} (h : 1 < maxShares ∨ (maxShares = 1 ∧ P)) : 0 < maxShares := by
  rcases h with hmore | ⟨rfl, -⟩
  · exact UInt32.lt_trans (by decide) hmore
  · decide

/-- Under the condition an answer is as promised. -/
theorem Tracked.keeps (h : s.Tracked) {event : RotationEvent} (hsound : s.Sound event) :
    s.Keeps event := by
  cases event with
  | request =>
    intro index result hrequest
    obtain ⟨after, hanswer, -⟩ := DiversifierRotationService.requestAddress_eq_some.mp hrequest
    have hcount := h.counted index
    unfold Promised
    unfold Sound at hsound
    cases hpolicy : s.service.policy with
    | alwaysFresh =>
      rw [hpolicy] at hsound
      exact h.fresh hsound (nextFresh_of_answer hpolicy hanswer)
    | reuseUntilReceived =>
      rw [hpolicy] at hsound
      rw [answer_reuseUntilReceived hpolicy hsound.1] at hanswer
      obtain ⟨rfl, -⟩ := Prod.mk.inj (Option.some.inj hanswer)
      exact fun before hbefore => (h.held before hbefore).2.1
    | reuseUntilShared maxShares =>
      rw [hpolicy] at hsound
      have hpos := pos_of_sound hsound
      show s.answers.count index < maxShares.toNat
      rcases hsound with hmore | ⟨rfl, hunshared | hahead⟩
      · rcases shares_of_answer hpolicy hpos hanswer with hshares | hfound
        · exact Nat.lt_of_le_of_lt hcount (UInt32.lt_iff_toNat_lt.mp hshares)
        · have hone := shares_le_one (avoided_of_nextFresh hfound)
          exact Nat.lt_of_le_of_lt hcount
            (UInt32.lt_iff_toNat_lt.mp (UInt32.lt_of_le_of_lt hone hmore))
      · rw [answer_unshared hpolicy hpos hunshared.1 hunshared.2] at hanswer
        obtain ⟨rfl, -⟩ := Prod.mk.inj (Option.some.inj hanswer)
        rw [hunshared.1] at hcount
        exact Nat.lt_of_le_of_lt hcount (by decide)
      · rcases shares_of_answer hpolicy hpos hanswer with hshares | hfound
        · exact Nat.lt_of_le_of_lt hcount (UInt32.lt_iff_toNat_lt.mp hshares)
        · have hnever := h.fresh hahead hfound
          rw [List.count_eq_zero.mpr fun hanswered => hnever (h.answered index hanswered)]
          decide
    | manual => trivial
  | markShared _ | markReceived _ | markSpent _ | setPolicy _ | advanceTo _ => trivial

/-- Under the condition no count of shares wraps. -/
theorem Sound.shares_ne {after : DiversifierRotationService} (hsound : s.Sound .request)
    (hanswer : s.service.answer = some (index, after)) : shares s.service index ≠ 4294967295 := by
  have hfew : shares s.service index ≤ 1 → shares s.service index ≠ 4294967295 := by
    intro hone hmax
    rw [hmax] at hone
    exact absurd hone (by decide)
  unfold Sound at hsound
  cases hpolicy : s.service.policy with
  | alwaysFresh =>
    exact hfew (shares_le_one (avoided_of_nextFresh (nextFresh_of_answer hpolicy hanswer)))
  | reuseUntilReceived =>
    rw [hpolicy] at hsound
    rw [answer_reuseUntilReceived hpolicy hsound.1] at hanswer
    obtain ⟨rfl, -⟩ := Prod.mk.inj (Option.some.inj hanswer)
    exact hsound.2
  | reuseUntilShared maxShares =>
    rw [hpolicy] at hsound
    rcases shares_of_answer hpolicy (pos_of_sound hsound) hanswer with hshares | hfound
    · rintro hmax
      rw [hmax] at hshares
      have hle : maxShares.toNat < 4294967296 := maxShares.toNat_lt
      have hlt : 4294967295 < maxShares.toNat := UInt32.lt_iff_toNat_lt.mp hshares
      omega
    · exact hfew (shares_le_one (avoided_of_nextFresh hfound))
  | manual =>
    rw [hpolicy] at hsound
    rw [answer_manual hpolicy] at hanswer
    obtain ⟨rfl, -⟩ := Prod.mk.inj (Option.some.inj hanswer)
    exact hsound

/-- One more share is counted once. -/
theorem counted_markShared (counts : UInt32 → Nat)
    (h : ∀ other, counts other ≤ (shares service other).toNat)
    (hmax : shares service index ≠ 4294967295) (other : UInt32) :
    counts other + (if index == other then 1 else 0) ≤
      (shares (service.markShared index) other).toNat := by
  have hother := h other
  split
  · rename_i heq
    obtain rfl := eq_of_beq heq
    have hself : shares (service.markShared index) index = shares service index + 1 :=
      shares_track_self
    have hbound : (shares service index).toNat < 4294967296 := UInt32.toNat_lt _
    have hne : (shares service index).toNat ≠ 4294967295 := fun h => hmax (UInt32.toNat_inj.mp h)
    have hone : (1 : UInt32).toNat = 1 := rfl
    rw [hself, UInt32.toNat_add, hone]
    omega
  · rename_i hne
    have hsame : shares (service.markShared index) other = shares service other :=
      shares_track_of_ne fun heq => hne (beq_iff_eq.mpr heq.symm)
    rw [hsame]
    omega

/-- A change that counts no share leaves the counts. -/
theorem shares_track_eq (change : AddressUsage → AddressUsage)
    (hchange : ∀ usage, (change usage).shareCount = usage.shareCount) (other : UInt32) :
    shares (service.track index change) other = shares service other := by
  by_cases h : other = index
  · subst h
    rw [shares_track_self, hchange]
    rfl
  · exact shares_track_of_ne h

theorem known_track (h : ∀ other, service.usage other ≠ none → other ∈ service.usedIndices)
    (other : UInt32) (hother : (service.track index change).usage other ≠ none) :
    other ∈ (service.track index change).usedIndices := by
  rw [mem_usedIndices_track]
  by_cases heq : other = index
  · exact .inl heq
  · right
    have hsame : (service.track index change).usage other = service.usage other :=
      Function.update_of_ne heq _ _
    exact h other (hsame ▸ hother)

/-- A request keeps the service's own records in step with what happened. -/
theorem Tracked.request (h : s.Tracked) (hsound : s.Sound .request) :
    (s.step .request).Tracked := by
  unfold Rotation.step
  dsimp only
  split
  swap
  · exact h
  rename_i index result hrequest
  obtain ⟨after, hanswer, rfl⟩ := DiversifierRotationService.requestAddress_eq_some.mp hrequest
  have hmax := hsound.shares_ne hanswer
  obtain ⟨husage, hindices, hpolicy⟩ : after.usage = s.service.usage ∧
      after.usedIndices = s.service.usedIndices ∧ after.policy = s.service.policy := by
    rcases DiversifierRotationService.answer_cases hanswer with ⟨-, rfl⟩ | ⟨-, rfl⟩
    · exact ⟨rfl, rfl, rfl⟩
    · exact ⟨rfl, rfl, rfl⟩
  have hshares : ∀ other, shares after other = shares s.service other := by
    intro other
    unfold shares
    rw [husage]
  constructor
  · refine known_track fun other hother => ?_
    rw [hindices]
    exact h.known other (husage ▸ hother)
  · intro other hother
    refine mem_usedIndices_track.mpr ?_
    rw [hindices]
    rcases List.mem_cons.mp hother with rfl | hold
    · exact .inl rfl
    · exact .inr (h.used other hold)
  · intro other hother
    rcases List.mem_cons.mp hother with rfl | hold
    · exact List.mem_cons_self
    · exact List.mem_cons_of_mem _ (h.answered other hold)
  · intro other
    have hcounted := counted_markShared (fun other => s.answers.count other)
      (fun other => (hshares other).symm ▸ h.counted other) (hshares index ▸ hmax) other
    rw [List.count_cons]
    exact hcounted
  · intro other hother
    dsimp only at hother
    split at hother
    · rename_i hreuse
      obtain rfl := Option.some.inj hother
      unfold Sound at hsound
      rw [hreuse] at hsound
      rw [answer_reuseUntilReceived hreuse hsound.1] at hanswer
      obtain ⟨rfl, rfl⟩ := Prod.mk.inj (Option.some.inj hanswer)
      exact ⟨hreuse, rfl, (received_markShared _).trans hsound.1⟩
    · cases hother

/-- **The step lemma.** After a sound event the service's own records still agree with what
happened. -/
theorem Tracked.step (h : s.Tracked) {event : RotationEvent} (hsound : s.Sound event) :
    (s.step event).Tracked := by
  have hused : ∀ {index change}, ∀ other ∈ s.handedOut,
      other ∈ (s.service.track index change).usedIndices :=
    fun other hother => mem_usedIndices_track.mpr (.inr (h.used other hother))
  cases event with
  | request => exact h.request hsound
  | markShared index =>
    constructor
    · exact known_track h.known
    · intro other hother
      rcases List.mem_cons.mp hother with rfl | hold
      · exact mem_usedIndices_track.mpr (.inl rfl)
      · exact hused other hold
    · exact fun other hother => List.mem_cons_of_mem _ (h.answered other hother)
    · intro other
      have hcounted := counted_markShared (fun other => s.answers.count other) h.counted hsound other
      exact Nat.le_trans (Nat.le_add_right _ _) hcounted
    · intro other hother
      obtain ⟨hpolicy, hcurrent, hreceived⟩ := h.held other hother
      exact ⟨hpolicy, hcurrent, (received_markShared other).trans hreceived⟩
  | markReceived index =>
    refine ⟨known_track h.known, hused, h.answered, fun other => ?_, nofun⟩
    have hsame : shares (s.service.markReceived index) other = shares s.service other :=
      shares_track_eq AddressUsage.markReceived (fun _ => rfl) other
    show s.answers.count other ≤ (shares (s.service.markReceived index) other).toNat
    rw [hsame]
    exact h.counted other
  | markSpent index =>
    refine ⟨known_track h.known, hused, h.answered, fun other => ?_, fun other hother => ?_⟩
    · have hsame : shares (s.service.markSpent index) other = shares s.service other :=
        shares_track_eq AddressUsage.markSpent (fun _ => rfl) other
      show s.answers.count other ≤ (shares (s.service.markSpent index) other).toNat
      rw [hsame]
      exact h.counted other
    · obtain ⟨hpolicy, hcurrent, hreceived⟩ := h.held other hother
      exact ⟨hpolicy, hcurrent, (received_markSpent other).trans hreceived⟩
  | setPolicy policy => exact ⟨h.known, h.used, h.answered, h.counted, nofun⟩
  | advanceTo index => exact ⟨h.known, h.used, h.answered, h.counted, nofun⟩

end Rotation

open Rotation in
/-- **What the policies promise is kept**, in every run whose events find the service sound: a
fresh index is one never handed out or shared before, an index is reused until it receives funds,
and none is answered more often than it may be shared. -/
theorem rotation_promises (currentIndex highestUsed : UInt32) (usedIndices : List UInt32)
    (policy : RotationPolicy) (events : List RotationEvent)
    (hsound : Runs.EachStep Rotation.step Sound
      (start (.restore currentIndex highestUsed usedIndices policy)) events) :
    Runs.EachStep Rotation.step Keeps
      (start (.restore currentIndex highestUsed usedIndices policy)) events := by
  have htracked := Runs.run_invariant (P := Tracked) (fun s event h hsound => h.step hsound)
    (tracked_start currentIndex highestUsed usedIndices policy) hsound
  intro done event rest hsplit
  exact (htracked done (hsplit ▸ List.prefix_append _ _)).keeps (hsound done event rest hsplit)

/-- Three requests under three policies, with a share and a receipt between them. -/
def soundEvents : List RotationEvent :=
  [.request, .setPolicy (.reuseUntilShared 3), .markShared 1, .request, .markReceived 1,
    .setPolicy .alwaysFresh, .request]

open Rotation in
theorem rotation_promises_mixed :
    (Runs.run Rotation.step (start (.new .alwaysFresh)) soundEvents).answers = [2, 1, 0] ∧
      Runs.EachStep Rotation.step Keeps (start (.new .alwaysFresh)) soundEvents := by
  have hahead : ∀ {s : Rotation}, s.service.policy = .alwaysFresh → (∃ k < 4294967296,
      s.service.currentIndex + UInt32.ofNat k ∉ s.service.usedIndices ∧
        ∀ j < k, avoided s.service.usage (s.service.currentIndex + UInt32.ofNat j) = true) →
      s.Sound .request := by
    intro s hpolicy hahead
    unfold Sound
    rw [hpolicy]
    exact hahead
  refine ⟨by decide, rotation_promises 0 0 [] .alwaysFresh soundEvents ?_⟩
  refine Runs.eachStep_cons.mpr ⟨hahead rfl ⟨0, by decide, by decide, by decide⟩, ?_⟩
  refine Runs.eachStep_cons.mpr ⟨trivial, Runs.eachStep_cons.mpr ⟨?_, ?_⟩⟩
  · unfold Sound
    decide
  refine Runs.eachStep_cons.mpr ⟨.inl (by decide), Runs.eachStep_cons.mpr ⟨trivial, ?_⟩⟩
  refine Runs.eachStep_cons.mpr ⟨trivial, Runs.eachStep_cons.mpr ⟨?_, Runs.eachStep_nil⟩⟩
  exact hahead rfl ⟨1, by decide, by decide, by decide⟩

open Rotation in
/-- **Broken promises.** After a receipt two requests under `ReuseUntilReceived` are answered
differently, an index that was shared once is handed out as fresh, and under
`ReuseUntilShared(1)` an index is answered twice. -/
theorem rotation_breaks_promises :
    (Runs.run Rotation.step (start (.new .reuseUntilReceived))
        [.request, .markReceived 0, .request, .request]).answers = [2, 1, 0] ∧
      (Runs.run Rotation.step (start (.new .alwaysFresh)) [.markShared 0, .request]).answers = [0] ∧
      (Runs.run Rotation.step (start (.new (.reuseUntilShared 1))) [.request, .request]).answers =
        [0, 0] ∧
      ¬ ∀ policy events, Runs.EachStep Rotation.step Keeps (start (.new policy)) events := by
  refine ⟨by decide, by decide, by decide, fun hall => ?_⟩
  have hkeeps := hall .reuseUntilReceived [.request, .markReceived 0, .request, .request]
    [.request, .markReceived 0, .request] .request [] rfl
  exact absurd (hkeeps 2 _ rfl 1 rfl) (by decide)

end StashiWallet
