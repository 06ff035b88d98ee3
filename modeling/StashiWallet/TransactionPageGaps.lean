import StashiWallet.TransactionPageRuns

/-!
# Pages of a history that changes

Between two pages entries come in, and the entry of the cursor can go or change its state. The next
page starts after the first entry with the cursor's id and amount. It keeps the reader's place if
that entry stands behind everything returned and before every confirmed or expired entry to come; an
entry that expires moves to the end of the list, one that is confirmed or taken back moves too. If
no entry is left with that id and amount, the page starts at the first one that comes after the
cursor, and an expired entry comes after none: a lost expired cursor takes the reader back to the
first confirmed entry, and one with nothing confirmed after it to the end of the list.
`keepsPlace_iff` says exactly when the place is kept.
-/

namespace StashiWallet

/-- What an entry was to the reader when the history changed: returned, the one of the cursor, an
older one that was to come, or one that has come in. -/
inductive Standing where
  | returned
  | cursor
  | older
  | other
deriving DecidableEq, Repr

/-- The page after the cursor of `last` leaves out no confirmed or expired entry that was to come,
and nothing that was returned is still to come. -/
def KeepsPlace (last : TxInfo) (next : List (Standing × TxInfo)) : Prop :=
  (∀ e ∈ next.take (pageStart (next.map Prod.snd) (some last.cursor)),
      e.1 = .older → e.2.group = 0) ∧
    ∀ e ∈ next.drop (pageStart (next.map Prod.snd) (some last.cursor)),
      e.1 ≠ .returned ∧ e.1 ≠ .cursor

/-- Between two pages, the last of which ends before `stop`: entries that were returned or to come
stay as they are or go, that of the cursor keeps its id and amount or goes, and others come in. -/
structure Gap (entries : List (Bool × TxInfo)) (stop : Nat) (last : TxInfo)
    (next : List (Standing × TxInfo)) : Prop where
  history : IsHistory (next.map Prod.snd)
  returned : ∀ e ∈ next, e.1 = .returned → (true, e.2) ∈ entries
  cursor : ∀ e ∈ next, e.1 = .cursor → transactionMatchesCursor last.cursor e.2 = true
  older : ∀ e ∈ next, e.1 = .older → ∃ mark, (mark, e.2) ∈ entries.drop stop

/-- The cursor is found behind everything returned and before all that was to come, but for what is
pending. -/
def FoundInPlace (last : TxInfo) (next : List (Standing × TxInfo)) : Prop :=
  ∃ passed entry rest, next = passed ++ entry :: rest ∧
    transactionMatchesCursor last.cursor entry.2 = true ∧
    (∀ e ∈ passed, transactionMatchesCursor last.cursor e.2 = false) ∧
    (∀ e ∈ passed ++ [entry], e.1 = .older → e.2.group = 0) ∧
    ∀ e ∈ rest, e.1 ≠ .returned ∧ e.1 ≠ .cursor

/-- The cursor is lost. If an entry comes after it, an expired cursor needs that only pending
entries were returned of those left; if none does, that only pending entries were to come. -/
def LostInPlace (last : TxInfo) (next : List (Standing × TxInfo)) : Prop :=
  (∀ e ∈ next, transactionMatchesCursor last.cursor e.2 = false) ∧
    (((∃ e ∈ next, transactionIsAfterCursor last.cursor e.2 = true) ∧
        (last.group = 2 → ∀ e ∈ next, e.1 = .returned → e.2.group = 0)) ∨
      ((∀ e ∈ next, transactionIsAfterCursor last.cursor e.2 = false) ∧
        ∀ e ∈ next, e.1 = .older → e.2.group = 0))

/-- What a change of the history between two pages must meet: its cursor is found where it keeps the
reader's place, or lost where that does no harm. -/
def GapMeets (last : TxInfo) (next : List (Standing × TxInfo)) : Prop :=
  FoundInPlace last next ∨ LostInPlace last next

/-! ## A reading -/

/-- The entries of a list nobody has read of. -/
def unread (transactions : List TxInfo) : List (Bool × TxInfo) := transactions.map (false, ·)

/-- What is marked as returned of a changed list. -/
def marksOf (next : List (Standing × TxInfo)) : List (Bool × TxInfo) :=
  next.map fun e => (decide (e.1 = .returned) || decide (e.1 = .cursor), e.2)

/-- A page is returned and its entries are marked. -/
def markPage (entries : List (Bool × TxInfo)) (cursor : Option TransactionCursor) (size : Nat) :
    List (Bool × TxInfo) :=
  let start := pageStart (entries.map Prod.snd) cursor
  entries.take start ++ ((entries.drop start).take size).map (fun e => (true, e.2)) ++
    entries.drop (start + size)

/-- A page comes with the cursor of its last entry. -/
structure Turns (size : Nat) (entries : List (Bool × TxInfo)) (cursor : Option TransactionCursor)
    (last : TxInfo) : Prop where
  ends : (paginateTransactionSnapshot (entries.map Prod.snd) cursor size).transactions.getLast? =
    some last
  goesOn : (paginateTransactionSnapshot (entries.map Prod.snd) cursor size).nextCursor =
    some last.cursor

/-- The marked history after a page that is not the last, where the page stops, and its last entry:
in a reading in which each change met the condition. -/
inductive Reading (size : Nat) : List (Bool × TxInfo) → Nat → TxInfo → Prop
  | first {transactions : List TxInfo} {last : TxInfo} (hhistory : IsHistory transactions)
      (hturn : Turns size (unread transactions) none last) :
      Reading size (markPage (unread transactions) none size) size last
  | next {entries : List (Bool × TxInfo)} {stop : Nat} {last after : TxInfo}
      {next : List (Standing × TxInfo)} (hread : Reading size entries stop last)
      (hgap : Gap entries stop last next) (hmeets : GapMeets last next)
      (hturn : Turns size (marksOf next) (some last.cursor) after) :
      Reading size (markPage (marksOf next) (some last.cursor) size)
        (pageStart (next.map Prod.snd) (some last.cursor) + size) after

/-- Where a reader is: everything returned stands before the last entry, what is to come after. -/
structure Place (entries : List (Bool × TxInfo)) (stop : Nat) (last : TxInfo) : Prop where
  returned : ∀ tx, (true, tx) ∈ entries → tx.Listed last
  older : ∀ e ∈ entries.drop stop, last.Listed e.2

theorem map_unread (transactions : List TxInfo) :
    (unread transactions).map Prod.snd = transactions := by
  simp [unread]

theorem map_marksOf (next : List (Standing × TxInfo)) :
    (marksOf next).map Prod.snd = next.map Prod.snd := by
  simp [marksOf]

section Turn

variable {size : Nat} {entries : List (Bool × TxInfo)} {cursor : Option TransactionCursor}
  {last : TxInfo}

/-- The last entry of a page stands where the page stops. -/
theorem Turns.split (hsize : 0 < size) (h : Turns size entries cursor last) :
    ∃ passed mark, entries =
        passed ++ (mark, last) :: entries.drop (pageStart (entries.map Prod.snd) cursor + size) ∧
      passed.length + 1 = pageStart (entries.map Prod.snd) cursor + size := by
  obtain ⟨hends, hgoes⟩ := h
  rw [paginate_eq] at hends hgoes
  have hmore : pageStart (entries.map Prod.snd) cursor + size < (entries.map Prod.snd).length := by
    by_contra hlast
    rw [CursorPages.pageAt_of_last (Nat.not_lt.mp hlast)] at hgoes
    cases hgoes
  unfold pageStart at hmore ⊢
  generalize hstart : CursorPages.startAt transactionMatchesCursor transactionIsAfterCursor
    (entries.map Prod.snd) cursor = start at hmore ⊢
  rw [CursorPages.pageAt_of_more hsize (by rw [hstart]; exact hmore)] at hends
  dsimp only at hends
  rw [hstart] at hends
  rw [List.length_map] at hmore
  have hstop : start + size - 1 < entries.length := by omega
  have hlast : (entries[start + size - 1]).2 = last := by
    rw [List.getLast?_eq_getElem?, List.length_take, List.length_drop, List.length_map,
      Nat.min_eq_left (by omega), List.getElem?_take_of_lt (by omega), List.getElem?_drop,
      ← Nat.add_sub_assoc (by omega), List.getElem?_map, List.getElem?_eq_getElem hstop] at hends
    exact Option.some.inj hends
  refine ⟨entries.take (start + size - 1), (entries[start + size - 1]).1, ?_, ?_⟩
  · have hdrop := List.drop_eq_getElem_cons hstop
    have hnext : start + size - 1 + 1 = start + size := by omega
    rw [hnext] at hdrop
    subst hlast
    rw [← hdrop, List.take_append_drop]
  · rw [List.length_take, Nat.min_eq_left (by omega)]
    omega

/-- A page of a history, of which nothing that is left was returned, takes the reader on. -/
theorem Turns.place (hsize : 0 < size) (hhistory : IsHistory (entries.map Prod.snd))
    (hfresh : ∀ e ∈ entries.drop (pageStart (entries.map Prod.snd) cursor), e.1 = false)
    (h : Turns size entries cursor last) :
    Place (markPage entries cursor size) (pageStart (entries.map Prod.snd) cursor + size) last := by
  obtain ⟨passed, mark, hsplit, hlength⟩ := h.split hsize
  generalize hstart : pageStart (entries.map Prod.snd) cursor = start at hsplit hlength hfresh ⊢
  have hrest : entries.drop (start + size) =
      (markPage entries cursor size).drop (start + size) := by
    unfold markPage
    rw [hstart]
    dsimp only
    have hbound : start + size ≤ entries.length := by
      have hcount := congrArg List.length hsplit
      rw [List.length_append, List.length_cons] at hcount
      omega
    have hfront : (entries.take start ++
        ((entries.drop start).take size).map (fun e => (true, e.2))).length = start + size := by
      rw [List.length_append, List.length_map, List.length_take, List.length_take,
        List.length_drop]
      omega
    rw [List.drop_append, hfront, Nat.sub_self, List.drop_zero,
      List.drop_of_length_le (Nat.le_of_eq hfront), List.nil_append]
  have horder := hhistory.listed
  rw [hsplit, List.map_append, List.map_cons, List.pairwise_append, List.pairwise_cons] at horder
  obtain ⟨-, ⟨hafter, -⟩, hbefore⟩ := horder
  constructor
  · intro tx htx
    have hread : ∃ e ∈ entries.take (start + size), e.2 = tx := by
      unfold markPage at htx
      rw [hstart] at htx
      dsimp only at htx
      rw [List.mem_append, List.mem_append] at htx
      rcases htx with (htaken | hpage) | hleft
      · have hshort : entries.take start = (entries.take (start + size)).take start := by
          rw [List.take_take, Nat.min_eq_left (by omega)]
        rw [hshort] at htaken
        exact ⟨(true, tx), List.mem_of_mem_take htaken, rfl⟩
      · obtain ⟨e, he, heq⟩ := List.mem_map.mp hpage
        refine ⟨e, ?_, (Prod.mk.inj heq).2⟩
        rw [List.take_drop] at he
        exact List.mem_of_mem_drop he
      · have hle : start ≤ start + size := by omega
        have hnot := hfresh _ (List.drop_subset_drop_left entries hle hleft)
        cases hnot
    obtain ⟨e, he, rfl⟩ := hread
    rw [hsplit, ← hlength, List.take_length_add_append, List.mem_append] at he
    rcases he with hpassed | hlast
    · exact hbefore _ (List.mem_map_of_mem hpassed) _ List.mem_cons_self
    · obtain rfl : e = (mark, last) := by simpa using hlast
      exact listed_self last
  · intro e he
    rw [← hrest] at he
    exact hafter _ (List.mem_map_of_mem he)

end Turn

/-! ## What a change does to a reading -/

section Change

variable {last : TxInfo} {next : List (Standing × TxInfo)}

/-- The page starts after the first entry the cursor is found at. -/
theorem pageStart_of_found {passed rest : List (Standing × TxInfo)} {entry : Standing × TxInfo}
    (hmatch : transactionMatchesCursor last.cursor entry.2 = true)
    (hbefore : ∀ e ∈ passed, transactionMatchesCursor last.cursor e.2 = false) :
    pageStart ((passed ++ entry :: rest).map Prod.snd) (some last.cursor) = passed.length + 1 := by
  unfold pageStart
  apply CursorPages.startAt_of_found
  rw [List.findIdx?_map, List.findIdx?_append]
  have hnone : passed.findIdx? (transactionMatchesCursor last.cursor ∘ Prod.snd) = none := by
    rw [List.findIdx?_eq_none_iff]
    exact hbefore
  rw [hnone, List.findIdx?_cons]
  simp [hmatch]

/-- A cursor is found at a first entry, or lost. -/
theorem found_or_lost (last : TxInfo) (next : List (Standing × TxInfo)) :
    (∃ passed entry rest, next = passed ++ entry :: rest ∧
      transactionMatchesCursor last.cursor entry.2 = true ∧
      ∀ e ∈ passed, transactionMatchesCursor last.cursor e.2 = false) ∨
    ∀ e ∈ next, transactionMatchesCursor last.cursor e.2 = false := by
  cases hfind : next.find? (fun e => transactionMatchesCursor last.cursor e.2) with
  | none =>
    rw [List.find?_eq_none] at hfind
    exact Or.inr fun e he => Bool.not_eq_true _ ▸ hfind e he
  | some entry =>
    obtain ⟨hmatch, passed, rest, rfl, hbefore⟩ := List.find?_eq_some_iff_append.mp hfind
    refine Or.inl ⟨passed, entry, rest, rfl, hmatch, fun e he => ?_⟩
    have hnot := hbefore e he
    rwa [Bool.not_eq_true'] at hnot

/-- A found cursor keeps the place exactly if it is found in place. -/
theorem keepsPlace_of_found {passed rest : List (Standing × TxInfo)} {entry : Standing × TxInfo}
    (hmatch : transactionMatchesCursor last.cursor entry.2 = true)
    (hbefore : ∀ e ∈ passed, transactionMatchesCursor last.cursor e.2 = false) :
    KeepsPlace last (passed ++ entry :: rest) ↔
      (∀ e ∈ passed ++ [entry], e.1 = .older → e.2.group = 0) ∧
        ∀ e ∈ rest, e.1 ≠ .returned ∧ e.1 ≠ .cursor := by
  unfold KeepsPlace
  have hsplit : passed ++ entry :: rest = (passed ++ [entry]) ++ rest := by simp
  have hfront : (passed ++ [entry]).length = passed.length + 1 := List.length_append
  rw [pageStart_of_found hmatch hbefore, hsplit, ← hfront, List.take_left, List.drop_left]

/-- A lost cursor that nothing comes after takes the reader to the end. -/
theorem keepsPlace_of_none (hlost : ∀ e ∈ next, transactionMatchesCursor last.cursor e.2 = false)
    (hnone : ∀ e ∈ next, transactionIsAfterCursor last.cursor e.2 = false) :
    KeepsPlace last next ↔ ∀ e ∈ next, e.1 = .older → e.2.group = 0 := by
  have hstart : pageStart (next.map Prod.snd) (some last.cursor) = next.length := by
    unfold pageStart
    rw [CursorPages.startAt_of_lost (List.forall_mem_map.mpr hlost)]
    have hfind : (next.map Prod.snd).findIdx? (transactionIsAfterCursor last.cursor) = none := by
      rw [List.findIdx?_eq_none_iff]
      exact List.forall_mem_map.mpr hnone
    rw [hfind, Option.getD_none, List.length_map]
  unfold KeepsPlace
  rw [hstart, List.take_length, List.drop_length]
  exact ⟨fun h => h.1, fun h => ⟨h, fun e he => absurd he List.not_mem_nil⟩⟩

/-- A lost cursor takes the reader to the first entry that comes after it. -/
theorem pageStart_of_lost {front back : List (Standing × TxInfo)} {entry : Standing × TxInfo}
    (hlost : ∀ e ∈ front ++ entry :: back, transactionMatchesCursor last.cursor e.2 = false)
    (hafter : transactionIsAfterCursor last.cursor entry.2 = true)
    (hbefore : ∀ e ∈ front, transactionIsAfterCursor last.cursor e.2 = false) :
    pageStart ((front ++ entry :: back).map Prod.snd) (some last.cursor) = front.length := by
  unfold pageStart
  rw [CursorPages.startAt_of_lost (List.forall_mem_map.mpr hlost), List.findIdx?_map,
    List.findIdx?_append]
  have hnone : front.findIdx? (transactionIsAfterCursor last.cursor ∘ Prod.snd) = none := by
    rw [List.findIdx?_eq_none_iff]
    exact hbefore
  rw [hnone, List.findIdx?_cons]
  simp [hafter]

/-- An entry that stands at or after one that comes after the cursor, and before the cursor's last
entry, is behind an expired cursor. -/
theorem group_of_between {first tx : TxInfo}
    (hfirst : transactionIsAfterCursor last.cursor first = true) (hle : first.Listed tx)
    (hlast : tx.Listed last) (hlost : transactionMatchesCursor last.cursor tx = false) :
    last.group = 2 ∧ tx.group ≠ 0 := by
  obtain ⟨hgroup, hgt⟩ := after_iff.mp hfirst
  have hatLeast : 1 ≤ tx.group := by
    rcases hle with hlt | ⟨heq, -⟩ <;> omega
  refine ⟨?_, by omega⟩
  by_contra hnot
  have hbound : ∀ entry : TxInfo, entry.group ≤ 2 := by
    intro entry
    unfold TxInfo.group
    split
    · omega
    · split <;> omega
  have hlastBound := hbound last
  -- then all three are confirmed, and the cursor compares equal
  have hgroups : tx.group = 1 ∧ last.group = 1 := by
    rcases hlast with hlt | ⟨heq, -⟩ <;> omega
  have hgtFirst := hgt hgroups.2
  have hgeTx : (orderCursors first tx).isGE = true := by
    rcases hle with hlt | ⟨-, hge⟩
    · omega
    · exact compareCursor_eq first tx ▸ hge hgroup
  have hgeLast : (orderCursors tx last).isGE = true := by
    rcases hlast with hlt | ⟨-, hge⟩
    · omega
    · exact compareCursor_eq tx last ▸ hge hgroups.1
  have hfirstLast : (orderCursors last tx).isGE = true :=
    Std.TransCmp.isGE_trans (by rw [Ordering.isGE_eq_isGT_or_isEq, hgtFirst]; rfl) hgeTx
  have hle' : (orderCursors last tx).isLE = true := Std.OrientedCmp.isLE_of_isGE hgeLast
  have heq : compareCursor last.cursor tx = .eq := by
    rw [compareCursor_eq]
    cases hcompare : orderCursors last tx with
    | lt =>
      rw [hcompare] at hfirstLast
      cases hfirstLast
    | eq => rfl
    | gt =>
      rw [hcompare] at hle'
      cases hle'
  rw [matches_of_compare heq] at hlost
  cases hlost

/-- An entry to come that stands before the first one after a lost cursor is pending. -/
theorem group_of_front {first tx : TxInfo}
    (hfirst : transactionIsAfterCursor last.cursor first = true) (hle : tx.Listed first)
    (hnot : transactionIsAfterCursor last.cursor tx = false) (hlast : last.Listed tx)
    (hlost : transactionMatchesCursor last.cursor tx = false) : tx.group = 0 := by
  obtain ⟨hgroup, -⟩ := after_iff.mp hfirst
  by_contra hpending
  have hone : tx.group = 1 := by
    rcases hle with hlt | ⟨heq, -⟩ <;> omega
  have hafter : transactionIsAfterCursor last.cursor tx = true := by
    refine after_iff.mpr ⟨hone, fun hlastGroup => ?_⟩
    have hge : (orderCursors last tx).isGE = true := by
      rcases hlast with hlt | ⟨-, hge⟩
      · omega
      · exact compareCursor_eq last tx ▸ hge hlastGroup
    cases hcompare : orderCursors last tx with
    | lt =>
      rw [hcompare] at hge
      cases hge
    | eq =>
      rw [matches_of_compare ((compareCursor_eq last tx).trans hcompare)] at hlost
      cases hlost
    | gt => rfl
  rw [hafter] at hnot
  cases hnot

variable {entries : List (Bool × TxInfo)} {stop : Nat}

/-- A lost cursor that an entry comes after keeps the place, unless it is that of an expired entry
and takes the reader back over confirmed or expired ones. -/
theorem keepsPlace_of_after (hplace : Place entries stop last) (hgap : Gap entries stop last next)
    (hlost : ∀ e ∈ next, transactionMatchesCursor last.cursor e.2 = false)
    (hsome : ∃ e ∈ next, transactionIsAfterCursor last.cursor e.2 = true) :
    KeepsPlace last next ↔
      (last.group = 2 → ∀ e ∈ next, e.1 = .returned → e.2.group = 0) := by
  obtain ⟨first, hfind⟩ : ∃ first, next.find?
      (fun e => transactionIsAfterCursor last.cursor e.2) = some first := by
    rw [← Option.isSome_iff_exists, List.find?_isSome]
    exact hsome
  obtain ⟨hafter, front, back, hnext, hfront⟩ := List.find?_eq_some_iff_append.mp hfind
  have hbefore : ∀ e ∈ front, transactionIsAfterCursor last.cursor e.2 = false := by
    intro e he
    have hnot := hfront e he
    rwa [Bool.not_eq_true'] at hnot
  have horder := hgap.history.listed
  rw [hnext, List.map_append, List.map_cons, List.pairwise_append, List.pairwise_cons] at horder
  obtain ⟨-, ⟨hbehind, -⟩, hahead⟩ := horder
  have hfirstLe : ∀ e ∈ first :: back, first.2.Listed e.2 := by
    intro e he
    rcases List.mem_cons.mp he with rfl | hback
    · exact listed_self e.2
    · exact hbehind _ (List.mem_map_of_mem hback)
  have hleFirst : ∀ e ∈ front, e.2.Listed first.2 := fun e he =>
    hahead _ (List.mem_map_of_mem he) _ List.mem_cons_self
  have hmemFront : ∀ e ∈ front, e ∈ next := fun e he => by simp [hnext, he]
  have hmemBack : ∀ e ∈ first :: back, e ∈ next := fun e he => by
    rw [hnext]
    exact List.mem_append_right _ he
  have hskips : ∀ e ∈ front, e.1 = .older → e.2.group = 0 := by
    intro e he holder
    obtain ⟨mark, hmark⟩ := hgap.older e (hmemFront e he) holder
    exact group_of_front hafter (hleFirst e he) (hbefore e he) (hplace.older _ hmark)
      (hlost e (hmemFront e he))
  have hcursor : ∀ e ∈ next, e.1 ≠ .cursor := by
    intro e he heq
    have hmatch := hgap.cursor e he heq
    rw [hlost e he] at hmatch
    cases hmatch
  have hstart : pageStart (next.map Prod.snd) (some last.cursor) = front.length := by
    rw [hnext] at hlost ⊢
    exact pageStart_of_lost hlost hafter hbefore
  unfold KeepsPlace
  rw [hstart]
  conv_lhs => rw [hnext]
  rw [List.take_left, List.drop_left]
  constructor
  · rintro ⟨-, hrepeats⟩ hexpired e he hreturned
    rw [hnext, List.mem_append] at he
    rcases he with hin | hin
    · have hnot := hbefore e hin
      rw [← Bool.not_eq_true, after_iff] at hnot
      obtain ⟨hgroup, -⟩ := after_iff.mp hafter
      have hne : e.2.group ≠ 1 := fun hone => hnot ⟨hone, fun h => by omega⟩
      rcases hleFirst e hin with hlt | ⟨heq, -⟩ <;> omega
    · exact absurd hreturned (hrepeats e hin).1
  · intro hpending
    refine ⟨hskips, fun e he => ⟨fun hreturned => ?_, hcursor e (hmemBack e he)⟩⟩
    have hlisted := hplace.returned e.2 (hgap.returned e (hmemBack e he) hreturned)
    obtain ⟨hexpired, hne⟩ := group_of_between hafter (hfirstLe e he) hlisted
      (hlost e (hmemBack e he))
    exact hne (hpending hexpired e (hmemBack e he) hreturned)

/-- **A change keeps the reader's place** exactly if it meets the condition. -/
theorem keepsPlace_iff (hplace : Place entries stop last) (hgap : Gap entries stop last next) :
    KeepsPlace last next ↔ GapMeets last next := by
  unfold GapMeets
  rcases found_or_lost last next with ⟨passed, entry, rest, rfl, hmatch, hbefore⟩ | hlost
  · rw [keepsPlace_of_found hmatch hbefore]
    constructor
    · rintro ⟨hskips, hrepeats⟩
      exact Or.inl ⟨passed, entry, rest, rfl, hmatch, hbefore, hskips, hrepeats⟩
    · rintro (⟨passed', entry', rest', heq, hmatch', hbefore', hskips, hrepeats⟩ | ⟨hlost, -⟩)
      · rw [← keepsPlace_of_found hmatch hbefore, heq, keepsPlace_of_found hmatch' hbefore']
        exact ⟨hskips, hrepeats⟩
      · rw [hlost entry (by simp)] at hmatch
        cases hmatch
  · have hnotFound : ¬ FoundInPlace last next := by
      rintro ⟨passed, entry, rest, rfl, hmatch, -⟩
      rw [hlost entry (by simp)] at hmatch
      cases hmatch
    rw [or_iff_right hnotFound]
    unfold LostInPlace
    by_cases hsome : ∃ e ∈ next, transactionIsAfterCursor last.cursor e.2 = true
    · have hnotNone : ¬ ∀ e ∈ next, transactionIsAfterCursor last.cursor e.2 = false := by
        intro hnone
        obtain ⟨e, he, hafter⟩ := hsome
        rw [hnone e he] at hafter
        cases hafter
      rw [keepsPlace_of_after hplace hgap hlost hsome]
      simp only [hsome, hnotNone, true_and, false_and, or_false, and_iff_right hlost]
    · have hnone : ∀ e ∈ next, transactionIsAfterCursor last.cursor e.2 = false := by
        intro e he
        rw [← Bool.not_eq_true]
        exact fun hafter => hsome ⟨e, he, hafter⟩
      rw [keepsPlace_of_none hlost hnone]
      simp only [hsome, false_and, false_or, and_iff_right hlost, and_iff_right hnone]

end Change

/-! ## Readings -/

section Readings

variable {size stop : Nat} {entries : List (Bool × TxInfo)} {last : TxInfo}
  {next : List (Standing × TxInfo)}

/-- Nothing marked is behind a place that was kept. -/
theorem KeepsPlace.fresh (h : KeepsPlace last next) :
    ∀ e ∈ (marksOf next).drop (pageStart ((marksOf next).map Prod.snd) (some last.cursor)),
      e.1 = false := by
  intro e he
  rw [map_marksOf] at he
  unfold marksOf at he
  rw [← List.map_drop] at he
  obtain ⟨entry, hentry, rfl⟩ := List.mem_map.mp he
  obtain ⟨hreturned, hcursor⟩ := h.2 entry hentry
  simp [hreturned, hcursor]

/-- A reading in which each change met the condition is in place. -/
theorem Reading.place (hsize : 0 < size) (h : Reading size entries stop last) :
    Place entries stop last := by
  induction h with
  | @first transactions last hhistory hturn =>
    have hfresh : ∀ e ∈ (unread transactions).drop
        (pageStart ((unread transactions).map Prod.snd) none), e.1 = false := by
      intro e he
      obtain ⟨tx, -, rfl⟩ := List.mem_map.mp (List.mem_of_mem_drop he)
      rfl
    have hplace := hturn.place hsize ((map_unread _).symm ▸ hhistory) hfresh
    have hstart : ∀ transactions, pageStart transactions none = 0 := fun _ => rfl
    rwa [hstart, Nat.zero_add] at hplace
  | next hread hgap hmeets hturn ih =>
    have hkeeps := (keepsPlace_iff ih hgap).mpr hmeets
    have hplace := hturn.place hsize ((map_marksOf _).symm ▸ hgap.history) hkeeps.fresh
    rwa [map_marksOf] at hplace

end Readings

/-- **Reading a history page by page.** A history that stays as it is is read in full, in order and
once, exactly if no page ends with an entry whose id and amount an earlier entry has. A change
between two pages keeps the reader's place exactly if it meets the condition. -/
theorem transactionPages_iff {size : Nat} (hsize : 0 < size) (hmax : size ≤ 200) :
    (∀ (lists after : TransactionLists) (snapshot : List TxInfo),
      lists.pageSnapshot none = .ok (snapshot, after) →
      ((∃ fuel, TransactionLists.followPages size fuel lists none = .ok (some snapshot)) ↔
        CursorPages.Distinguishes transactionMatchesCursor TxInfo.cursor snapshot size)) ∧
    ∀ (entries : List (Bool × TxInfo)) (stop : Nat) (last : TxInfo)
      (next : List (Standing × TxInfo)), Reading size entries stop last →
      Gap entries stop last next → (KeepsPlace last next ↔ GapMeets last next) :=
  ⟨fun _ _ _ h => TransactionLists.followPages_iff hsize hmax h,
    fun _ _ _ _ hread hgap => keepsPlace_iff (hread.place hsize) hgap⟩

/-! ## A record that expires between two pages -/

/-- A transaction that was sent and is not mined. -/
def sentRecord : TransactionRecord where
  txid := "bb"
  height := 0
  timestamp := 900
  amount := -7
  hasOutgoing := true
  outgoingValue := some 7
  outgoingValueEstimate := none
  outgoingBeforeFee := none
  outgoingScopeKnown := true
  storedFee := none
  fee := 0
  memo := none
  expired := false
  expiryHeight := some 60

/-- The same when its expiry height has passed. -/
def expiredRecord : TransactionRecord := { sentRecord with expired := true }

/-- A transaction received before. -/
def receivedRecord : TransactionRecord where
  txid := "aa"
  height := 50
  timestamp := 800
  amount := 12
  hasOutgoing := false
  outgoingValue := none
  outgoingValueEstimate := none
  outgoingBeforeFee := none
  outgoingScopeKnown := true
  storedFee := none
  fee := 0
  memo := none
  expired := false
  expiryHeight := none

/-- The entry of a record at height 60. -/
def entryAt60 (tx : TransactionRecord) : TxInfo := tx.txInfo 60 fun _ => none

/-- With a pending and a confirmed entry and pages of one, the pending one expires after the first
page: it is found at the end of the list, and the confirmed one is on no page. -/
theorem page_skips_confirmed :
    paginateTransactionSnapshot [entryAt60 sentRecord, entryAt60 receivedRecord] none 1 =
        ⟨[entryAt60 sentRecord], some (entryAt60 sentRecord).cursor⟩ ∧
      IsHistory [entryAt60 sentRecord, entryAt60 receivedRecord] ∧
      Gap (markPage (unread [entryAt60 sentRecord, entryAt60 receivedRecord]) none 1) 1
        (entryAt60 sentRecord)
        [(.older, entryAt60 receivedRecord), (.cursor, entryAt60 expiredRecord)] ∧
      paginateTransactionSnapshot [entryAt60 receivedRecord, entryAt60 expiredRecord]
        (some (entryAt60 sentRecord).cursor) 1 = ⟨[], none⟩ ∧
      (entryAt60 receivedRecord).group = 1 ∧
      ¬ KeepsPlace (entryAt60 sentRecord)
        [(.older, entryAt60 receivedRecord), (.cursor, entryAt60 expiredRecord)] := by
  refine ⟨by decide +kernel, ?_, ⟨?_, by decide +kernel, by decide +kernel, ?_⟩, by decide +kernel,
    by decide +kernel, ?_⟩
  · exact ⟨60, fun _ => none, [sentRecord, receivedRecord], by decide +kernel, by decide +kernel,
      rfl⟩
  · exact ⟨60, fun _ => none, [receivedRecord, expiredRecord], by decide +kernel, by decide +kernel,
      rfl⟩
  · intro e he holder
    have heq : e = (.older, entryAt60 receivedRecord) := by
      rcases List.mem_cons.mp he with rfl | hlast
      · rfl
      · rw [List.mem_singleton.mp hlast] at holder
        cases holder
    subst heq
    exact ⟨false, by decide +kernel⟩
  · unfold KeepsPlace
    decide +kernel

/-- A reader of pages of one, when a transaction comes in and the entry of the cursor stays. -/
theorem transactionPages_iff_sent :
    ((∃ fuel, TransactionLists.followPages 1 fuel
        ⟨false, false, none, .ok [entryAt60 sentRecord, entryAt60 receivedRecord]⟩ none =
          .ok (some [entryAt60 sentRecord, entryAt60 receivedRecord])) ↔
      CursorPages.Distinguishes transactionMatchesCursor TxInfo.cursor
        [entryAt60 sentRecord, entryAt60 receivedRecord] 1) ∧
    (KeepsPlace (entryAt60 sentRecord)
        [(.cursor, entryAt60 sentRecord), (.older, entryAt60 receivedRecord)] ↔
      GapMeets (entryAt60 sentRecord)
        [(.cursor, entryAt60 sentRecord), (.older, entryAt60 receivedRecord)]) := by
  have hhistory : IsHistory [entryAt60 sentRecord, entryAt60 receivedRecord] :=
    ⟨60, fun _ => none, [sentRecord, receivedRecord], by decide +kernel, by decide +kernel, rfl⟩
  have hread : Reading 1 (markPage (unread [entryAt60 sentRecord, entryAt60 receivedRecord]) none 1)
      1 (entryAt60 sentRecord) := .first hhistory ⟨by decide +kernel, by decide +kernel⟩
  have hgap : Gap (markPage (unread [entryAt60 sentRecord, entryAt60 receivedRecord]) none 1) 1
      (entryAt60 sentRecord)
      [(.cursor, entryAt60 sentRecord), (.older, entryAt60 receivedRecord)] := by
    refine ⟨hhistory, by decide +kernel, by decide +kernel, fun e he holder => ?_⟩
    have heq : e = (.older, entryAt60 receivedRecord) := by
      rcases List.mem_cons.mp he with rfl | hlast
      · cases holder
      · exact List.mem_singleton.mp hlast
    subst heq
    exact ⟨false, by decide +kernel⟩
  obtain ⟨hstays, hchanges⟩ := transactionPages_iff (by decide : 0 < 1) (by decide)
  exact ⟨hstays ⟨false, false, none, .ok [entryAt60 sentRecord, entryAt60 receivedRecord]⟩ _ _ rfl,
    hchanges _ _ _ _ hread hgap⟩

end StashiWallet
