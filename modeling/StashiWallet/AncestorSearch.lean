import StashiWallet.ReorgRollback
import StashiWallet.WhileLoops

/-!
# The search for a common ancestor

Where the wallet's chain and the server's agree up to some height and nowhere above it, the probes
at doubling distances and the bisection find that height, and so does the walk down the window. The
two loops are bounded by nothing the source counts; they are left because a probe that goes on is
nearer to the lowest height, and a bracket that goes on is smaller.
-/

namespace StashiWallet

open WhileLoop

/-- The element that a search for the greatest one of a set returns. -/
def IsHighest (heights : Set Nat) : Option Nat → Prop
  | some height => IsGreatest heights height
  | none => heights = ∅

theorem IsHighest.unique {heights : Set Nat} {a b : Option Nat} (ha : IsHighest heights a)
    (hb : IsHighest heights b) : a = b := by
  cases a with
  | none =>
    cases b with
    | none => rfl
    | some b =>
      have hmem : b ∈ heights := hb.1
      rw [show heights = ∅ from ha] at hmem
      exact absurd hmem (Set.notMem_empty b)
  | some a =>
    cases b with
    | none =>
      have hmem : a ∈ heights := ha.1
      rw [show heights = ∅ from hb] at hmem
      exact absurd hmem (Set.notMem_empty a)
    | some b => rw [IsGreatest.unique ha hb]

/-! ## The loops -/

section Loops

variable (remoteHash : Nat → Except SyncError Bytes) (localBlocks : List ChainBlockRow)

/-- A turn of the exponential loop, which carries the distance and the lowest mismatch. -/
def backoffTurn (divergentHeight stopHeight : Nat) (state : Nat × Nat) :
    Turn (Nat × Nat) (Except SyncError (Option Nat × Nat)) :=
  let probe := reorgBackoffProbe divergentHeight stopHeight state.1
  match probeAgrees remoteHash localBlocks probe with
  | .error error => .leave (.error error)
  | .ok true => .leave (.ok (some probe, state.2))
  | .ok false =>
    if probe = stopHeight then .leave (.ok (none, probe))
    else .again (min (state.1 * 2) u64Max, probe)

/-- A turn of the bisection, which carries its bracket. -/
def bisectTurn (bracket : Nat × Nat) : Turn (Nat × Nat) (Except SyncError Nat) :=
  if bracket.1 < bracket.2 then
    let probe := saturatingAdd (saturatingAdd bracket.1 bracket.2) 1 / 2
    match probeAgrees remoteHash localBlocks probe with
    | .error error => .leave (.error error)
    | .ok true => .again (probe, bracket.2)
    | .ok false => .again (bracket.1, probe - 1)
  else .leave (.ok bracket.1)

variable {remoteHash localBlocks}

/-- A probe above the lowest height leaves the distance room to double. -/
theorem double_of_probe {divergentHeight stopHeight distance : Nat}
    (hdepth : divergentHeight - stopHeight ≤ maxReorgSearchDepth)
    (hprobe : reorgBackoffProbe divergentHeight stopHeight distance ≠ stopHeight) :
    distance < divergentHeight - stopHeight ∧ min (distance * 2) u64Max = distance * 2 := by
  have hmax : u64Max = 18446744073709551615 := rfl
  have hdeepest : maxReorgSearchDepth = 2000 := rfl
  unfold reorgBackoffProbe at hprobe
  omega

/-- The exponential loop is left within the rounds that the window's length allows. -/
theorem backoffSearch_ends {divergentHeight stopHeight rounds distance : Nat}
    (hdepth : divergentHeight - stopHeight ≤ maxReorgSearchDepth) (hdistance : 0 < distance)
    (hrounds : divergentHeight - stopHeight - distance < rounds) (upperMismatch : Nat) :
    Ends (backoffTurn remoteHash localBlocks divergentHeight stopHeight) (distance, upperMismatch)
      (backoffSearch remoteHash localBlocks divergentHeight stopHeight rounds distance
        upperMismatch) := by
  induction rounds generalizing distance upperMismatch with
  | zero => omega
  | succ rounds ih =>
    unfold backoffSearch
    dsimp only
    generalize hat : reorgBackoffProbe divergentHeight stopHeight distance = probe
    cases hprobe : probeAgrees remoteHash localBlocks probe with
    | error error =>
      refine .leave ?_
      simp only [backoffTurn, hat, hprobe]
      rfl
    | ok agrees =>
      cases agrees with
      | true =>
        refine .leave ?_
        simp only [backoffTurn, hat, hprobe]
        rfl
      | false =>
        by_cases hstop : probe = stopHeight
        · refine .leave ?_
          simp only [backoffTurn, hat, hprobe, if_pos hstop]
          simp [bind, Except.bind, pure, Except.pure, hstop]
        · obtain ⟨habove, hdouble⟩ := double_of_probe hdepth (by rwa [hat])
          have hturn : backoffTurn remoteHash localBlocks divergentHeight stopHeight
              (distance, upperMismatch) = .again (min (distance * 2) u64Max, probe) := by
            simp only [backoffTurn, hat, hprobe, if_neg hstop]
          have hrest := @ih (min (distance * 2) u64Max) (by omega) (by omega) probe
          refine .again hturn ?_
          simpa [bind, Except.bind, hstop] using hrest

/-- A probe is inside its bracket, or it is no height that can be asked for. -/
theorem bisectProbe_cases {lower upper : Nat} (h : lower < upper) :
    (lower < saturatingAdd (saturatingAdd lower upper) 1 / 2 ∧
        saturatingAdd (saturatingAdd lower upper) 1 / 2 ≤ upper) ∨
      u32Max < saturatingAdd (saturatingAdd lower upper) 1 / 2 := by
  have hmax : u64Max = 18446744073709551615 := rfl
  have hsmall : u32Max = 4294967295 := rfl
  unfold saturatingAdd
  omega

theorem probeAgrees_of_large {probe : Nat} (h : u32Max < probe) :
    ∃ error, probeAgrees remoteHash localBlocks probe = .error error := by
  unfold probeAgrees
  cases localBlocks.find? (fun block => block.height == probe) with
  | none => exact ⟨_, rfl⟩
  | some stored =>
    refine ⟨.sync s!"Block height {probe} exceeds u32::MAX", ?_⟩
    simp [heightToU32, Nat.not_le.mpr h, bind, Except.bind]

/-- The bisection is left within as many rounds as its bracket has heights to rule out. -/
theorem bisectSearch_ends {rounds lower upper : Nat} (hrounds : upper - lower ≤ rounds) :
    Ends (bisectTurn remoteHash localBlocks) (lower, upper)
      (bisectSearch remoteHash localBlocks rounds lower upper) := by
  induction rounds generalizing lower upper with
  | zero =>
    refine .leave ?_
    unfold bisectTurn
    rw [if_neg (by dsimp only; omega)]
    rfl
  | succ rounds ih =>
    unfold bisectSearch
    by_cases hopen : lower < upper
    · rw [if_pos hopen]
      dsimp only
      have hcases := bisectProbe_cases hopen
      generalize hprobe : saturatingAdd (saturatingAdd lower upper) 1 / 2 = probe at hcases ⊢
      cases hagrees : probeAgrees remoteHash localBlocks probe with
      | error error =>
        refine .leave ?_
        simp only [bisectTurn, if_pos hopen, hprobe, hagrees]
        rfl
      | ok agrees =>
        obtain ⟨hlower, hupper⟩ | hlarge := hcases
        · cases agrees with
          | true =>
            refine .again ?_ (ih (by omega))
            simp only [bisectTurn, if_pos hopen, hprobe, hagrees]
          | false =>
            refine .again ?_ (ih (by omega))
            simp only [bisectTurn, if_pos hopen, hprobe, hagrees]
        · obtain ⟨error, herror⟩ := @probeAgrees_of_large remoteHash localBlocks probe hlarge
          rw [hagrees] at herror
          cases herror
    · rw [if_neg hopen]
      refine .leave ?_
      unfold bisectTurn
      rw [if_neg hopen]
      rfl

end Loops

/-! ## What they find -/

/-- The server has a block at the height of the stored one, and it is the stored one. -/
def SameBlock (remoteHash : Nat → Except SyncError Bytes) (stored : ChainBlockRow) : Prop :=
  (heightToU32 stored.height).bind remoteHash = .ok stored.hash

instance (remoteHash : Nat → Except SyncError Bytes) (stored : ChainBlockRow) :
    Decidable (SameBlock remoteHash stored) :=
  inferInstanceAs (Decidable (_ = _))

/-- The heights of the window at which the two chains agree. -/
def agreeing (remoteHash : Nat → Except SyncError Bytes) (localBlocks : List ChainBlockRow) :
    Set Nat :=
  {height | ∃ stored ∈ localBlocks, stored.height = height ∧ SameBlock remoteHash stored}

/-- A window without gaps on which the server answers, and the chains agree up to some height below
the divergent one. -/
structure SearchWindow (remoteHash : Nat → Except SyncError Bytes)
    (stopHeight divergentHeight : Nat) (localBlocks : List ChainBlockRow) : Prop where
  gapFree : localBlocks.map (·.height) =
    List.range' stopHeight (divergentHeight + 1 - stopHeight)
  answered : ∀ stored ∈ localBlocks, ∃ hash,
    (heightToU32 stored.height).bind remoteHash = .ok hash
  downward : ∀ low high, stopHeight ≤ low → low ≤ high →
    high ∈ agreeing remoteHash localBlocks → low ∈ agreeing remoteHash localBlocks
  diverges : divergentHeight ∉ agreeing remoteHash localBlocks

section Found

variable {remoteHash : Nat → Except SyncError Bytes} {localBlocks : List ChainBlockRow}
  {stopHeight divergentHeight : Nat}

variable (h : SearchWindow remoteHash stopHeight divergentHeight localBlocks)

include h

theorem SearchWindow.mem {stored : ChainBlockRow} (hstored : stored ∈ localBlocks) :
    stopHeight ≤ stored.height ∧ stored.height ≤ divergentHeight := by
  have hmem : stored.height ∈ List.range' stopHeight (divergentHeight + 1 - stopHeight) := by
    rw [← h.gapFree]
    exact List.mem_map_of_mem hstored
  have hrange := List.mem_range'_1.mp hmem
  omega

theorem SearchWindow.agreeing_mem {height : Nat}
    (hagrees : height ∈ agreeing remoteHash localBlocks) :
    stopHeight ≤ height ∧ height < divergentHeight := by
  obtain ⟨stored, hstored, rfl, hsame⟩ := hagrees
  obtain ⟨hstop, hle⟩ := h.mem hstored
  refine ⟨hstop, Nat.lt_of_le_of_ne hle fun heq => h.diverges ?_⟩
  rw [← heq]
  exact ⟨stored, hstored, rfl, hsame⟩

/-- A probe inside the window is answered, by the agreement there. -/
theorem SearchWindow.probe {probe : Nat} (hlow : stopHeight ≤ probe)
    (hhigh : probe ≤ divergentHeight) :
    ∃ agrees, probeAgrees remoteHash localBlocks probe = .ok agrees ∧
      (agrees = true ↔ probe ∈ agreeing remoteHash localBlocks) := by
  have hmem : probe ∈ localBlocks.map (·.height) := by
    rw [h.gapFree]
    exact List.mem_range'_1.mpr (by omega)
  obtain ⟨present, hpresent, hheight⟩ := List.mem_map.mp hmem
  cases hfind : localBlocks.find? (fun block => block.height == probe) with
  | none =>
    have hnone := List.find?_eq_none.mp hfind present hpresent
    exact absurd (beq_iff_eq.mpr hheight) hnone
  | some stored =>
    have hstored := List.mem_of_find?_eq_some hfind
    have hat : stored.height = probe := by simpa using List.find?_some hfind
    obtain ⟨hash, hhash⟩ := h.answered stored hstored
    refine ⟨stored.hash == hash, ?_, ?_⟩
    · unfold probeAgrees
      rw [hfind]
      rw [hat] at hhash
      cases hfits : heightToU32 probe with
      | error error =>
        rw [hfits] at hhash
        cases hhash
      | ok height =>
        rw [hfits] at hhash
        have hremote : remoteHash height = .ok hash := hhash
        simp [bind, Except.bind, hremote, pure, Except.pure]
    · rw [beq_iff_eq]
      constructor
      · intro heq
        exact ⟨stored, hstored, hat, by rw [SameBlock, hhash, heq]⟩
      · -- the heights of the window are different, so that this is the stored block
        rintro ⟨other, hother, hotherHeight, hsame⟩
        have hnodup : (localBlocks.map (·.height)).Nodup := by
          rw [h.gapFree]
          exact List.nodup_range'
        have heq : other = stored :=
          List.inj_on_of_nodup_map hnodup hother hstored (hotherHeight.trans hat.symm)
        rw [SameBlock, heq, hhash] at hsame
        exact (Except.ok.inj hsame).symm

/-- The bracket of the bisection: an agreement, and no other one above its upper end. -/
theorem bisectSearch_highest (hfits : divergentHeight ≤ u32Max) {rounds lower upper : Nat}
    (hrounds : upper - lower ≤ rounds) (hlower : lower ∈ agreeing remoteHash localBlocks)
    (hupper : upper ≤ divergentHeight)
    (habove : ∀ height ∈ agreeing remoteHash localBlocks, height ≤ upper) :
    ∃ found, bisectSearch remoteHash localBlocks rounds lower upper = .ok found ∧
      IsGreatest (agreeing remoteHash localBlocks) found := by
  induction rounds generalizing lower upper with
  | zero =>
    refine ⟨lower, rfl, hlower, fun height hheight => ?_⟩
    have hle := habove height hheight
    omega
  | succ rounds ih =>
    unfold bisectSearch
    by_cases hopen : lower < upper
    · rw [if_pos hopen]
      dsimp only
      have hmax : u64Max = 18446744073709551615 := rfl
      have hsmall : u32Max = 4294967295 := rfl
      have hprobe : lower < saturatingAdd (saturatingAdd lower upper) 1 / 2 ∧
          saturatingAdd (saturatingAdd lower upper) 1 / 2 ≤ upper := by
        unfold saturatingAdd
        omega
      generalize saturatingAdd (saturatingAdd lower upper) 1 / 2 = probe at hprobe ⊢
      have hstop := (h.agreeing_mem hlower).1
      obtain ⟨agrees, hagrees, hiff⟩ := @SearchWindow.probe _ _ _ _ h probe (by omega) (by omega)
      rw [hagrees]
      cases agrees with
      | true => exact ih (by omega) (hiff.mp rfl) hupper habove
      | false =>
        refine ih (by omega) hlower (by omega) fun height hheight => ?_
        -- an agreement at the probe or above it would be one at the probe
        by_contra hnot
        have hdown := h.downward probe height (by omega) (by omega) hheight
        exact Bool.false_ne_true (hiff.mpr hdown)
    · rw [if_neg hopen]
      refine ⟨lower, rfl, hlower, fun height hheight => ?_⟩
      have hle := habove height hheight
      omega

/-- The exponential loop leaves a bracket below the lowest mismatch, or no agreement at all. -/
theorem backoffSearch_bracket (hle : stopHeight ≤ divergentHeight)
    (hdepth : divergentHeight - stopHeight ≤ maxReorgSearchDepth) {rounds distance upper : Nat}
    (hdistance : 0 < distance) (hrounds : divergentHeight - stopHeight - distance < rounds)
    (hupper : stopHeight ≤ upper ∧ upper ≤ divergentHeight)
    (hmismatch : upper ∉ agreeing remoteHash localBlocks) :
    ∃ lower upper', backoffSearch remoteHash localBlocks divergentHeight stopHeight rounds distance
        upper = .ok (lower, upper') ∧
      match lower with
      | none => agreeing remoteHash localBlocks = ∅
      | some lower => lower ∈ agreeing remoteHash localBlocks ∧ upper' ≤ divergentHeight ∧
          ∀ height ∈ agreeing remoteHash localBlocks, height < upper' := by
  induction rounds generalizing distance upper with
  | zero => omega
  | succ rounds ih =>
    unfold backoffSearch
    dsimp only
    have hprobe : stopHeight ≤ reorgBackoffProbe divergentHeight stopHeight distance ∧
        reorgBackoffProbe divergentHeight stopHeight distance ≤ divergentHeight := by
      unfold reorgBackoffProbe
      omega
    generalize hat : reorgBackoffProbe divergentHeight stopHeight distance = probe at hprobe ⊢
    obtain ⟨agrees, hagrees, hiff⟩ := h.probe hprobe.1 hprobe.2
    rw [hagrees]
    cases agrees with
    | true =>
      refine ⟨some probe, upper, rfl, hiff.mp rfl, hupper.2, fun height hheight => ?_⟩
      by_contra hnot
      exact hmismatch (h.downward upper height hupper.1 (by omega) hheight)
    | false =>
      have hno : probe ∉ agreeing remoteHash localBlocks := fun hyes =>
        Bool.false_ne_true (hiff.mpr hyes)
      by_cases hstop : probe = stopHeight
      · refine ⟨none, probe, by simp [bind, Except.bind, pure, Except.pure, hstop], ?_⟩
        refine Set.eq_empty_of_forall_notMem fun height hheight => hno ?_
        rw [hstop]
        exact h.downward stopHeight height (Nat.le_refl _) (h.agreeing_mem hheight).1 hheight
      · obtain ⟨habove, hdouble⟩ := double_of_probe hdepth (by rwa [hat])
        obtain ⟨lower, upper', hrest, hfound⟩ := @ih (min (distance * 2) u64Max) probe (by omega)
          (by omega) hprobe hno
        exact ⟨lower, upper', by simpa [bind, Except.bind, hstop] using hrest, hfound⟩

omit h

/-- The walk finds the first stored block that the server has. -/
theorem walkSearch_highest {blocks : List ChainBlockRow}
    (hdescending : (blocks.map (·.height)).Pairwise (· > ·))
    (hanswered : ∀ stored ∈ blocks, ∃ hash,
      (heightToU32 stored.height).bind remoteHash = .ok hash) :
    ∃ found, walkSearch remoteHash blocks = .ok found ∧
      IsHighest (agreeing remoteHash blocks) found := by
  induction blocks with
  | nil =>
    refine ⟨none, rfl, Set.eq_empty_of_forall_notMem ?_⟩
    rintro height ⟨stored, hstored, -⟩
    cases hstored
  | cons stored rest ih =>
    rw [List.map_cons, List.pairwise_cons] at hdescending
    obtain ⟨hfirst, hrest⟩ := hdescending
    obtain ⟨hash, hhash⟩ := hanswered stored List.mem_cons_self
    have hstep : walkSearch remoteHash (stored :: rest) =
        if stored.hash == hash then .ok (some stored.height) else walkSearch remoteHash rest := by
      rw [walkSearch]
      cases hfits : heightToU32 stored.height with
      | error error =>
        rw [hfits] at hhash
        cases hhash
      | ok height =>
        rw [hfits] at hhash
        have hremote : remoteHash height = .ok hash := hhash
        simp [bind, Except.bind, hremote, pure, Except.pure]
    rw [hstep]
    by_cases hsame : stored.hash = hash
    · rw [if_pos (beq_iff_eq.mpr hsame)]
      refine ⟨_, rfl, ⟨stored, List.mem_cons_self, rfl, by rw [SameBlock, hhash, hsame]⟩, ?_⟩
      rintro height ⟨other, hother, rfl, -⟩
      obtain rfl | hlater := List.mem_cons.mp hother
      · exact Nat.le_refl _
      · exact Nat.le_of_lt (hfirst _ (List.mem_map_of_mem hlater))
    · rw [if_neg (by simpa using hsame)]
      obtain ⟨found, hfound, hhighest⟩ :=
        ih hrest fun other hother => hanswered other (List.mem_cons_of_mem _ hother)
      refine ⟨found, hfound, ?_⟩
      have hset : agreeing remoteHash (stored :: rest) = agreeing remoteHash rest := by
        ext height
        constructor
        · rintro ⟨other, hother, hheight, hagrees⟩
          obtain rfl | hlater := List.mem_cons.mp hother
          · rw [SameBlock, hhash] at hagrees
            exact absurd (Except.ok.inj hagrees).symm hsame
          · exact ⟨other, hlater, hheight, hagrees⟩
        · rintro ⟨other, hother, hheight, hagrees⟩
          exact ⟨other, List.mem_cons_of_mem _ hother, hheight, hagrees⟩
      rwa [hset]

theorem agreeing_reverse :
    agreeing remoteHash localBlocks.reverse = agreeing remoteHash localBlocks := by
  unfold agreeing
  simp only [List.mem_reverse]

include h

/-- The walk down a window without gaps. -/
theorem SearchWindow.walk :
    ∃ found, walkSearch remoteHash localBlocks.reverse = .ok found ∧
      IsHighest (agreeing remoteHash localBlocks) found := by
  rw [← agreeing_reverse]
  apply walkSearch_highest
  · rw [List.map_reverse, h.gapFree, List.pairwise_reverse]
    exact List.pairwise_lt_range'
  · intro stored hstored
    exact h.answered stored (List.mem_reverse.mp hstored)

/-- The probes and the bisection of a window without gaps. -/
theorem SearchWindow.search (hle : stopHeight ≤ divergentHeight)
    (hdepth : divergentHeight - stopHeight ≤ maxReorgSearchDepth) :
    ∃ lower upper, backoffSearch remoteHash localBlocks divergentHeight stopHeight
        (saturatingAdd (divergentHeight - stopHeight) 1) 1 divergentHeight = .ok (lower, upper) ∧
      match lower with
      | none => agreeing remoteHash localBlocks = ∅
      | some lower => ∃ found,
          bisectSearch remoteHash localBlocks (upper - 1 - lower) lower (upper - 1) = .ok found ∧
            IsGreatest (agreeing remoteHash localBlocks) found := by
  have hmax : u64Max = 18446744073709551615 := rfl
  have hdeepest : maxReorgSearchDepth = 2000 := rfl
  have hrows :
      saturatingAdd (divergentHeight - stopHeight) 1 = divergentHeight - stopHeight + 1 := by
    unfold saturatingAdd
    omega
  obtain ⟨lower, upper, hbackoff, hbracket⟩ := @backoffSearch_bracket _ _ _ _ h hle hdepth
    (divergentHeight - stopHeight + 1) 1 divergentHeight (by omega) (by omega)
    ⟨hle, Nat.le_refl _⟩ h.diverges
  refine ⟨lower, upper, by rwa [hrows], ?_⟩
  cases lower with
  | none => exact hbracket
  | some lower =>
    obtain ⟨hlower, hupper, habove⟩ := hbracket
    have hfits : divergentHeight ≤ u32Max := by
      have hmem : divergentHeight ∈ localBlocks.map (·.height) := by
        rw [h.gapFree]
        exact List.mem_range'_1.mpr (by omega)
      obtain ⟨stored, hstored, hheight⟩ := List.mem_map.mp hmem
      obtain ⟨hash, hhash⟩ := h.answered stored hstored
      rw [hheight] at hhash
      unfold heightToU32 at hhash
      by_contra hlarge
      rw [if_neg hlarge] at hhash
      cases hhash
    refine bisectSearch_highest h hfits (Nat.le_refl _) hlower (by omega) fun height hheight => ?_
    have hlt := habove height hheight
    omega

end Found

/-- The search on a window: what it finds, and that the walk finds it as well. Its loops are left,
with what the rounds give them here. -/
structure FindsHighest (remoteHash : Nat → Except SyncError Bytes)
    (birthdayHeight divergentHeight : Nat) (db : WalletDb) (localBlocks : List ChainBlockRow) :
    Prop where
  found : ∃ found, findCommonAncestor remoteHash birthdayHeight divergentHeight db = .ok found ∧
    IsHighest (agreeing remoteHash localBlocks) found ∧
    walkSearch remoteHash localBlocks.reverse = .ok found
  backoff_ends : Ends (backoffTurn remoteHash localBlocks divergentHeight
      (max (divergentHeight - maxReorgSearchDepth) (birthdayHeight - 1))) (1, divergentHeight)
    (backoffSearch remoteHash localBlocks divergentHeight
      (max (divergentHeight - maxReorgSearchDepth) (birthdayHeight - 1))
      (saturatingAdd (divergentHeight -
        max (divergentHeight - maxReorgSearchDepth) (birthdayHeight - 1)) 1) 1 divergentHeight)
  bisect_ends : ∀ lower upper, Ends (bisectTurn remoteHash localBlocks) (lower, upper)
    (bisectSearch remoteHash localBlocks (upper - lower) lower upper)

/-- Over a window without gaps the search finds the highest height at which the chains agree. -/
theorem common_ancestor_highest {remoteHash : Nat → Except SyncError Bytes}
    {birthdayHeight divergentHeight : Nat} {db : WalletDb} {localBlocks : List ChainBlockRow}
    (hload : db.loadChainBlocks
      (max (divergentHeight - maxReorgSearchDepth) (birthdayHeight - 1)) divergentHeight =
        .ok localBlocks)
    (hwindow : SearchWindow remoteHash
      (max (divergentHeight - maxReorgSearchDepth) (birthdayHeight - 1)) divergentHeight
      localBlocks) :
    FindsHighest remoteHash birthdayHeight divergentHeight db localBlocks := by
  have hmax : u64Max = 18446744073709551615 := rfl
  have hdeepest : maxReorgSearchDepth = 2000 := rfl
  refine ⟨?_, ?_, fun lower upper => bisectSearch_ends (Nat.le_refl _)⟩
  · obtain ⟨walked, hwalk, hhighest⟩ := hwindow.walk
    refine ⟨walked, ?_, hhighest, hwalk⟩
    unfold findCommonAncestor
    dsimp only
    rw [hload]
    have hlength : localBlocks.length = divergentHeight + 1 -
        max (divergentHeight - maxReorgSearchDepth) (birthdayHeight - 1) := by
      rw [← List.length_map, hwindow.gapFree, List.length_range']
    have hdepth : divergentHeight - max (divergentHeight - maxReorgSearchDepth)
        (birthdayHeight - 1) ≤ maxReorgSearchDepth := by omega
    generalize max (divergentHeight - maxReorgSearchDepth) (birthdayHeight - 1) = stopHeight
      at hwindow hlength hdepth ⊢
    simp only [liftStorage, Except.mapError, bind, Except.bind]
    by_cases hle : stopHeight ≤ divergentHeight
    · have hrows : localBlocks.length = saturatingAdd (divergentHeight - stopHeight) 1 := by
        unfold saturatingAdd
        omega
      obtain ⟨lower, upper, hbackoff, hfound⟩ := hwindow.search hle hdepth
      rw [if_pos hrows, hbackoff]
      cases lower with
      | none => exact congrArg _ (@IsHighest.unique _ none _ hfound hhighest)
      | some lower =>
        obtain ⟨found, hbisect, hgreatest⟩ := hfound
        dsimp only
        rw [hbisect]
        exact congrArg _ (@IsHighest.unique _ (some found) _ hgreatest hhighest)
    · -- the birthday is above the divergent height, and the window is empty
      have hrows : ¬ localBlocks.length = saturatingAdd (divergentHeight - stopHeight) 1 := by
        unfold saturatingAdd
        omega
      rw [if_neg hrows]
      exact hwalk
  · apply backoffSearch_ends
    · omega
    · omega
    · unfold saturatingAdd
      omega

/-- A wallet that stored the blocks 4 to 7. -/
def forkedWallet : WalletDb :=
  { WalletDb.fresh "t" with
    chainBlocks := [⟨4, [4], [3], 0⟩, ⟨5, [5], [4], 0⟩, ⟨6, [6], [5], 0⟩, ⟨7, [7], [6], 0⟩] }

/-- A server that has the first two of these blocks and others above them. -/
def forkedServer (height : Nat) : Except SyncError Bytes :=
  .ok (if height = 4 then [4] else if height = 5 then [5] else [0])

theorem common_ancestor_highest_forked :
    FindsHighest forkedServer 5 7 forkedWallet forkedWallet.chainBlocks := by
  have hsame : ∀ stored ∈ forkedWallet.chainBlocks,
      SameBlock forkedServer stored ↔ stored.height ≤ 5 := by decide
  have hfits : ∀ stored ∈ forkedWallet.chainBlocks,
      heightToU32 stored.height = .ok stored.height := by decide
  refine common_ancestor_highest rfl ⟨rfl, fun stored hstored => ?_, ?_, ?_⟩
  · rw [hfits stored hstored]
    exact ⟨_, rfl⟩
  · rintro low high hlow hle ⟨stored, hstored, rfl, hagrees⟩
    have hfive := (hsame stored hstored).mp hagrees
    have hrange : low = 4 ∨ low = 5 := by
      change 4 ≤ low at hlow
      omega
    obtain rfl | rfl := hrange
    · exact ⟨⟨4, [4], [3], 0⟩, by decide, rfl, rfl⟩
    · exact ⟨⟨5, [5], [4], 0⟩, by decide, rfl, rfl⟩
  · rintro ⟨stored, hstored, hheight, hagrees⟩
    have hfive := (hsame stored hstored).mp hagrees
    omega

end StashiWallet
