import StashiWallet.WitnessCheck

/-!
# Where a rescan begins

A rescan lowers the requested height twice: to the floor of a pending key import, and to the
lowest unspent note, whose witness the rewound trees would otherwise lose. The trees may have
been rewound further; that height is kept apart from the one the engine is asked to scan from.
-/

namespace StashiWallet

structure RequiredKeyReplay where
  fromHeight : Nat
  importGeneration : Nat
deriving DecidableEq, Repr

def requiredKeyReplay (state : SpendabilityStateRow) : Except String (Option RequiredKeyReplay) :=
  if state.rescanRequired = false ∨ state.requiredRescanFromHeight = 0 then .ok none
  else if u32Max < state.requiredRescanFromHeight then
    .error "Required rescan height exceeds the supported chain height"
  else .ok (some ⟨state.requiredRescanFromHeight, state.keyImportGeneration⟩)

def clampRescanStart (requestedFromHeight : Nat) (required : Option RequiredKeyReplay) : Nat :=
  match required with
  | some pending => min requestedFromHeight pending.fromHeight
  | none => requestedFromHeight

/-- `min_unspent_height`: heights that are no `u32` are passed over. -/
def minUnspentHeight (notes : List NoteRow) : Option Nat :=
  (notes.filterMap (fun note => u32TryFrom note.height)).min?

/-- The start, lowered to the lowest unspent note. -/
def lowerToUnspent (effectiveFromHeight : Nat) (notes : List NoteRow) : Nat :=
  match minUnspentHeight notes with
  | some minHeight => if effectiveFromHeight > minHeight then minHeight else effectiveFromHeight
  | none => effectiveFromHeight

structure RescanStartPlan where
  requestedSyncFromHeight : Nat
  retainedTreeHeight : Nat
  fallbackReplayFromHeight : Nat
deriving DecidableEq, Repr

def planRescanStart (effectiveFromHeight retainedTreeHeight : Nat) : RescanStartPlan :=
  let requestedSyncFromHeight := max effectiveFromHeight 1
  let retainedTreeHeight := min retainedTreeHeight (requestedSyncFromHeight - 1)
  ⟨requestedSyncFromHeight, retainedTreeHeight, max (saturatingAdd retainedTreeHeight 1) 1⟩

/-- `rescan_spendability_heights`: the target and the anchor. -/
def rescanSpendabilityHeights (localHeight priorTargetHeight : Nat) : Nat × Nat :=
  (max priorTargetHeight localHeight, localHeight)

/-! ## Bounds -/

theorem clampRescanStart_le (requestedFromHeight : Nat) (required : Option RequiredKeyReplay) :
    clampRescanStart requestedFromHeight required ≤ requestedFromHeight := by
  cases required with
  | none => exact le_refl _
  | some pending => exact min_le_left _ _

theorem clampRescanStart_le_floor (requestedFromHeight : Nat) (pending : RequiredKeyReplay) :
    clampRescanStart requestedFromHeight (some pending) ≤ pending.fromHeight :=
  min_le_right _ _

theorem lowerToUnspent_le (effectiveFromHeight : Nat) (notes : List NoteRow) :
    lowerToUnspent effectiveFromHeight notes ≤ effectiveFromHeight := by
  unfold lowerToUnspent
  split
  · split
    · omega
    · exact le_refl _
  · exact le_refl _

/-- The lowered start is at or below every unspent note with a height. -/
theorem lowerToUnspent_le_note {effectiveFromHeight : Nat} {notes : List NoteRow} {note : NoteRow}
    (hnote : note ∈ notes) {height : Nat} (hheight : u32TryFrom note.height = some height) :
    lowerToUnspent effectiveFromHeight notes ≤ height := by
  have hmem : height ∈ notes.filterMap (fun note => u32TryFrom note.height) :=
    List.mem_filterMap.mpr ⟨note, hnote, hheight⟩
  unfold lowerToUnspent minUnspentHeight
  cases hmin : (notes.filterMap (fun note => u32TryFrom note.height)).min? with
  | none =>
    rw [List.min?_eq_none_iff] at hmin
    rw [hmin] at hmem
    cases hmem
  | some minHeight =>
    have hle : minHeight ≤ height := (List.min?_eq_some_iff.mp hmin).2 height hmem
    dsimp only
    split
    · exact hle
    · omega

end StashiWallet
