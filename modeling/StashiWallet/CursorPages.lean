import Mathlib.Data.List.Basic

/-!
# Pages by cursor

A list is handed out in pages. Where a page ends before the list does, it comes with a cursor that
stands for its last entry, and the next page starts after the first entry the cursor is found at; if
it is found nowhere, at the first entry that comes after it.

A reader who follows the cursors of a list that does not change gets the list, exactly if each
cursor is found at the entry it stands for and nowhere before it (`follow_iff`). Between two pages
the list can change: what the next page starts with is then given by where the cursor is found
(`startAt_of_found`, `startAt_of_lost`).
-/

namespace CursorPages

variable {α γ : Type} (found after : γ → α → Bool) (cursorOf : α → γ)

/-- Where a page starts. -/
def startAt (entries : List α) : Option γ → Nat
  | none => 0
  | some cursor =>
    (((entries.findIdx? (found cursor)).map (· + 1)).or
      (entries.findIdx? (after cursor))).getD entries.length

/-- A page: its entries, and the cursor if there are more. -/
def pageAt (entries : List α) (cursor : Option γ) (size : Nat) : List α × Option γ :=
  let start := startAt found after entries cursor
  let stop := min (start + size) entries.length
  let page := (entries.drop start).take (stop - start)
  (page, if stop < entries.length then page.getLast?.map cursorOf else none)

/-- The pages from a cursor on, one after the other; nothing if they do not end in so many. -/
def follow (entries : List α) (size : Nat) : Nat → Option γ → Option (List α)
  | 0, _ => none
  | fuel + 1, cursor =>
    match pageAt found after cursorOf entries cursor size with
    | (page, none) => some page
    | (page, some next) => (follow entries size fuel (some next)).map (page ++ ·)

/-- Each cursor a reader of whole pages gets is found first at its own entry. -/
def Distinguishes (entries : List α) (size : Nat) : Prop :=
  ∀ stop, 0 < stop → size ∣ stop → (hstop : stop < entries.length) →
    ∀ i, (hi : i + 1 < stop) →
      found (cursorOf (getElem entries (stop - 1) (by omega)))
        (getElem entries i (by omega)) = false

instance (entries : List α) (size : Nat) : Decidable (Distinguishes found cursorOf entries size) :=
  decidable_of_iff (∀ stop : Fin entries.length, 0 < stop.val → size ∣ stop.val →
      ∀ i : Fin entries.length, i.val + 1 < stop.val →
        found (cursorOf (getElem entries (stop.val - 1) (by omega))) entries[i] = false)
    ⟨fun h stop hpos hdvd hstop i hi => h ⟨stop, hstop⟩ hpos hdvd ⟨i, by omega⟩ hi,
      fun h stop hpos hdvd i hi => h stop.val hpos hdvd stop.isLt i.val hi⟩

variable {found after cursorOf} {entries : List α}

/-- The page starts after the first entry at which the cursor is found. -/
theorem startAt_of_found {cursor : γ} {i : Nat} (h : entries.findIdx? (found cursor) = some i) :
    startAt found after entries (some cursor) = i + 1 := by
  simp [startAt, h]

/-- A cursor that is found nowhere. -/
theorem startAt_of_lost {cursor : γ} (h : ∀ entry ∈ entries, found cursor entry = false) :
    startAt found after entries (some cursor) =
      (entries.findIdx? (after cursor)).getD entries.length := by
  have hnone : entries.findIdx? (found cursor) = none := by
    rw [List.findIdx?_eq_none_iff]
    exact h
  simp [startAt, hnone]

/-- A page that is not the last ends with the cursor of its last entry. -/
theorem pageAt_of_more {cursor : Option γ} {size : Nat} (hsize : 0 < size)
    (hmore : startAt found after entries cursor + size < entries.length) :
    pageAt found after cursorOf entries cursor size =
      ((entries.drop (startAt found after entries cursor)).take size,
        some (cursorOf (getElem entries
          (startAt found after entries cursor + size - 1) (by omega)))) := by
  unfold pageAt
  dsimp only
  rw [Nat.min_eq_left (Nat.le_of_lt hmore), Nat.add_sub_cancel_left, if_pos hmore]
  have hlast : ((entries.drop (startAt found after entries cursor)).take size).getLast? =
      some (getElem entries (startAt found after entries cursor + size - 1) (by omega)) := by
    rw [List.getLast?_eq_getElem?, List.length_take, List.length_drop,
      Nat.min_eq_left (by omega), List.getElem?_take_of_lt (by omega), List.getElem?_drop,
      ← Nat.add_sub_assoc (by omega), List.getElem?_eq_getElem]
  rw [hlast]
  rfl

/-- The last page gets to the end of the list. -/
theorem pageAt_of_last {cursor : Option γ} {size : Nat}
    (hlast : entries.length ≤ startAt found after entries cursor + size) :
    pageAt found after cursorOf entries cursor size =
      (entries.drop (startAt found after entries cursor), none) := by
  unfold pageAt
  dsimp only
  rw [Nat.min_eq_right hlast, if_neg (Nat.lt_irrefl _)]
  rw [List.take_of_length_le (by simp)]

section Follow

variable (hself : ∀ entry, found (cursorOf entry) entry = true)

include hself

/-- The cursor of an entry is found there or before. -/
theorem startAt_found {stop : Nat} (hpos : 0 < stop) (hstop : stop ≤ entries.length) :
    ∃ first, ∃ hlow : first < stop,
      startAt found after entries (some (cursorOf (getElem entries (stop - 1) (by omega)))) =
        first + 1 ∧
      found (cursorOf (getElem entries (stop - 1) (by omega)))
        (getElem entries first (by omega)) = true ∧
      ∀ i, (hi : i < first) →
        ¬ found (cursorOf (getElem entries (stop - 1) (by omega)))
          (getElem entries i (by omega)) = true := by
  cases hfind : entries.findIdx? (found (cursorOf (getElem entries (stop - 1) (by omega)))) with
  | none =>
    rw [List.findIdx?_eq_none_iff] at hfind
    have hnot := hfind _ (List.getElem_mem (by omega : stop - 1 < entries.length))
    rw [hself] at hnot
    cases hnot
  | some first =>
    obtain ⟨hlt, hmatch, hbefore⟩ := List.findIdx?_eq_some_iff_getElem.mp hfind
    refine ⟨first, ?_, startAt_of_found hfind, hmatch, hbefore⟩
    by_contra hgt
    have hnot := hbefore (stop - 1) (by omega)
    rw [hself] at hnot
    exact hnot rfl

theorem startAt_le {stop : Nat} (hpos : 0 < stop) (hstop : stop ≤ entries.length) :
    startAt found after entries (some (cursorOf (getElem entries (stop - 1) (by omega)))) ≤
      stop := by
  obtain ⟨first, hlow, heq, -⟩ := startAt_found hself hpos hstop
  rwa [heq]

/-- It is found first at its own entry exactly if it is found at none before. -/
theorem startAt_eq_iff {stop : Nat} (hpos : 0 < stop) (hstop : stop ≤ entries.length) :
    startAt found after entries (some (cursorOf (getElem entries (stop - 1) (by omega)))) = stop ↔
      ∀ i, (hi : i + 1 < stop) →
        found (cursorOf (getElem entries (stop - 1) (by omega)))
          (getElem entries i (by omega)) = false := by
  obtain ⟨first, hlow, heq, hmatch, hbefore⟩ := startAt_found hself hpos hstop
  rw [heq]
  constructor
  · intro hstart i hi
    have hnot := hbefore i (by omega)
    rwa [Bool.not_eq_true] at hnot
  · intro hnone
    by_contra hne
    rw [hnone first (by omega)] at hmatch
    cases hmatch

/-- Pages that end get at least to the end of the list. -/
theorem length_le_of_follow {size fuel : Nat} (hsize : 0 < size) {cursor : Option γ}
    {result : List α} (h : follow found after cursorOf entries size fuel cursor = some result) :
    entries.length ≤ startAt found after entries cursor + result.length := by
  induction fuel generalizing cursor result with
  | zero => cases h
  | succ fuel ih =>
    rw [follow] at h
    by_cases hmore : startAt found after entries cursor + size < entries.length
    · rw [pageAt_of_more hsize hmore] at h
      obtain ⟨rest, hrest, rfl⟩ := Option.map_eq_some_iff.mp h
      have hnext := ih hrest
      have hle := @startAt_le _ _ found after cursorOf entries hself
        (startAt found after entries cursor + size) (by omega) (Nat.le_of_lt hmore)
      rw [List.length_append, List.length_take, List.length_drop]
      omega
    · rw [pageAt_of_last (Nat.not_lt.mp hmore)] at h
      obtain rfl := Option.some.inj h
      rw [List.length_drop]
      omega

/-- Pages that yield the rest of the list have each started where the one before stopped. -/
theorem distinguishes_of_follow {size fuel start : Nat} (hsize : 0 < size) {cursor : Option γ}
    (hstart : startAt found after entries cursor = start) (hdvd : size ∣ start)
    (h : follow found after cursorOf entries size fuel cursor = some (entries.drop start)) :
    ∀ stop, start < stop → size ∣ stop → (hstop : stop < entries.length) →
      ∀ i, (hi : i + 1 < stop) →
        found (cursorOf (getElem entries (stop - 1) (by omega)))
          (getElem entries i (by omega)) = false := by
  induction fuel generalizing cursor start with
  | zero => cases h
  | succ fuel ih =>
    intro stop hlt hmultiple hstop
    obtain ⟨gap, hgap⟩ := (Nat.dvd_sub hmultiple hdvd : size ∣ stop - start)
    have hreach : start + size ≤ stop := by
      cases gap with
      | zero => omega
      | succ gap =>
        rw [Nat.mul_succ] at hgap
        omega
    rw [follow] at h
    have hmore : startAt found after entries cursor + size < entries.length := by omega
    rw [pageAt_of_more hsize hmore] at h
    obtain ⟨rest, hrest, hwhole⟩ := Option.map_eq_some_iff.mp h
    rw [hstart] at hwhole
    have hrestEq : rest = entries.drop (start + size) := by
      have hparts := hwhole.trans (List.take_append_drop size (entries.drop start)).symm
      rw [List.drop_drop] at hparts
      exact List.append_cancel_left hparts
    subst hstart
    have hle := @startAt_le _ _ found after cursorOf entries hself
      (startAt found after entries cursor + size) (by omega) (Nat.le_of_lt hmore)
    have hlength := length_le_of_follow hself hsize hrest
    rw [hrestEq, List.length_drop] at hlength
    have hexact : startAt found after entries (some (cursorOf
        (getElem entries (startAt found after entries cursor + size - 1) (by omega)))) =
        startAt found after entries cursor + size := by omega
    rcases Nat.lt_or_ge (startAt found after entries cursor + size) stop with hlater | hnow
    · rw [hrestEq] at hrest
      exact ih hexact (Nat.dvd_add hdvd (Nat.dvd_refl size)) hrest stop hlater hmultiple hstop
    · obtain rfl : stop = startAt found after entries cursor + size := by omega
      exact (startAt_eq_iff hself (by omega) (Nat.le_of_lt hstop)).mp hexact

/-- Cursors that are found at their own entries lead through the rest of the list. -/
theorem follow_of_distinguishes {size : Nat} (hsize : 0 < size)
    (h : Distinguishes found cursorOf entries size) {cursor : Option γ} {start : Nat}
    (hstart : startAt found after entries cursor = start) (hdvd : size ∣ start) :
    ∃ fuel, follow found after cursorOf entries size fuel cursor = some (entries.drop start) := by
  induction hrest : entries.length - start using Nat.strongRecOn generalizing cursor start with
  | ind rest ih =>
    subst hrest
    by_cases hmore : startAt found after entries cursor + size < entries.length
    · have hpage := @pageAt_of_more _ _ found after cursorOf _ _ _ hsize hmore
      have hmultiple : size ∣ start + size := Nat.dvd_add hdvd (Nat.dvd_refl size)
      subst hstart
      have hexact := (@startAt_eq_iff _ _ found after cursorOf _ hself _ (by omega)
        (Nat.le_of_lt hmore)).mpr
        (h _ (by omega) hmultiple hmore)
      obtain ⟨fuel, hfuel⟩ := ih _ (by omega) hexact hmultiple rfl
      refine ⟨fuel + 1, ?_⟩
      rw [follow, hpage]
      dsimp only
      rw [hfuel, Option.map_some, ← List.drop_drop, List.take_append_drop]
    · refine ⟨1, ?_⟩
      rw [follow, pageAt_of_last (Nat.not_lt.mp hmore), hstart]

/-- **Following the cursors of a list that stays as it is** yields the list, exactly if each cursor
is found first at its own entry. -/
theorem follow_iff {size : Nat} (hsize : 0 < size) :
    (∃ fuel, follow found after cursorOf entries size fuel none = some entries) ↔
      Distinguishes found cursorOf entries size := by
  constructor
  · rintro ⟨fuel, hfuel⟩ stop hpos hdvd hstop
    have hstart : startAt found after entries none = 0 := rfl
    exact distinguishes_of_follow hself hsize hstart (Nat.dvd_zero size) hfuel stop hpos hdvd hstop
  · intro h
    have hstart : startAt found after entries none = 0 := rfl
    exact follow_of_distinguishes hself hsize h hstart (Nat.dvd_zero size)

end Follow

end CursorPages
