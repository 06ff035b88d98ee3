import StashiWallet.RollbackContract

/-!
# The anchors a rollback leaves

A rollback clamps the anchors of the spendability row to the height it was asked for, while it
rewinds the trees to the newest checkpoint both have at or below that height. Trees that keep few
checkpoints set the two apart: the row then names an anchor that the trees no longer reach.
-/

namespace StashiWallet

namespace SpendabilityStateRow

def highestAnchor (row : SpendabilityStateRow) : Nat :=
  max row.anchorHeight row.validatedAnchorHeight

/-- No anchor of the row lies above the height. -/
def AnchorsWithin (row : SpendabilityStateRow) (height : Nat) : Prop :=
  row.anchorHeight ≤ height ∧ row.validatedAnchorHeight ≤ height

theorem anchorsWithin_iff {row : SpendabilityStateRow} {height : Nat} :
    row.AnchorsWithin height ↔ row.highestAnchor ≤ height := max_le_iff.symm

variable (now : String) (height : Nat) (row : SpendabilityStateRow)

include height

@[simp] theorem truncateAboveHeight_anchorHeight :
    (row.truncateAboveHeight now height).anchorHeight = min height row.anchorHeight := by
  simp only [truncateAboveHeight]
  split <;> omega

@[simp] theorem truncateAboveHeight_validatedAnchorHeight :
    (row.truncateAboveHeight now height).validatedAnchorHeight =
      min height row.validatedAnchorHeight := by
  simp only [truncateAboveHeight]
  split <;> omega

@[simp] theorem truncateAboveHeight_highestAnchor :
    (row.truncateAboveHeight now height).highestAnchor = min height row.highestAnchor := by
  simp only [highestAnchor, truncateAboveHeight_anchorHeight,
    truncateAboveHeight_validatedAnchorHeight]
  omega

end SpendabilityStateRow

section Trees

variable {sapling orchard : TreeTables} {height returned : Nat}

/-- The trees reach a height if it is zero or below a checkpoint both have. -/
theorem IsReplayHeight.le_iff (h : IsReplayHeight sapling orchard height returned) (anchor : Nat) :
    anchor ≤ returned ↔
      anchor = 0 ∨ ∃ id, IsCommonCheckpoint sapling orchard height id ∧ anchor ≤ id.val := by
  rcases h with ⟨newest, hnewest, rfl, hgreatest⟩ | ⟨hnone, rfl⟩
  · constructor
    · exact fun hle => Or.inr ⟨newest, hnewest, hle⟩
    · rintro (rfl | ⟨id, hid, hle⟩)
      · exact Nat.zero_le _
      · exact hle.trans (Fin.le_def.mp (hgreatest id hid))
  · constructor
    · exact fun hle => Or.inl (Nat.le_zero.mp hle)
    · rintro (rfl | ⟨id, hid, -⟩)
      · exact Nat.le_refl 0
      · exact absurd hid (hnone id)

end Trees

section Rollback

variable {encrypt decrypt : Bytes → Except String Bytes}
  {truncateSapling truncateOrchard : TruncateTree}
  {now : String} {height returned : Nat} {db after : StoredWallet}

/-- **When a rollback leaves no anchor above its trees.** Exactly if what is left of the anchors
once they are cut at the height is zero, or lies at or below a checkpoint both trees have there. -/
theorem rollback_anchors_iff
    (h : truncateStored encrypt decrypt truncateSapling truncateOrchard now height db =
      .ok (returned, after)) :
    after.spendabilityState.AnchorsWithin returned ↔
      min height db.spendabilityState.highestAnchor = 0 ∨
        ∃ id, IsCommonCheckpoint db.saplingTree db.orchardTree height id ∧
          min height db.spendabilityState.highestAnchor ≤ id.val := by
  have hback := truncateStored_eq_ok h
  rw [SpendabilityStateRow.anchorsWithin_iff, hback.spendabilityState,
    SpendabilityStateRow.truncateAboveHeight_highestAnchor]
  exact (replayHeight_of_common hback.returned_eq).le_iff _

end Rollback

/-- A wallet validated at an anchor, whose trees share one checkpoint, at height 5. -/
def anchoredWallet (anchor : Nat) : StoredWallet :=
  { rollbackWallet with
    spendabilityState := { SpendabilityStateRow.default "" with
      spendable := true
      rescanRequired := false
      targetHeight := anchor
      anchorHeight := anchor
      validatedAnchorHeight := anchor
      reasonCode := "OK" } }

theorem rollback_anchors_at_checkpoint :
    (rolledBack 6 (anchoredWallet 5)).spendabilityState.AnchorsWithin 5 :=
  (@rollback_anchors_iff .ok .ok cutEmptyTree cutEmptyTree "" 6 5 (anchoredWallet 5)
    (rolledBack 6 (anchoredWallet 5)) rfl).mpr
      (Or.inr ⟨⟨5, five_lt⟩, mem_commonKeys.mp (by decide), by decide⟩)

/-- Validated at 9 and rolled back to 8, the wallet keeps a validated anchor of 8 over trees that
end at 5. -/
theorem rollback_keeps_stale_anchor :
    ∃ after, truncateStored .ok .ok cutEmptyTree cutEmptyTree "" 8 (anchoredWallet 9) =
        .ok (5, after) ∧
      after.spendabilityState.validatedAnchorHeight = 8 ∧
      ¬ after.spendabilityState.AnchorsWithin 5 :=
  ⟨_, rfl, rfl, fun hwithin => absurd hwithin.2 (by decide)⟩

end StashiWallet
