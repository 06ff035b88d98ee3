import StashiWallet.NoteBirthdays
import StashiWallet.ProtectedKeyRuns

/-!
# What the birthday recovery lowers

The loop over the notes keeps, for each key, the least of its birthday and the heights of its notes
so far (`Lowered`), so that in the end no order of the notes can be told from the tables
(`Recovered.unique`). The height of the latch is the least at which a note lay below a floor.
-/

namespace StashiWallet

open Transactions

/-- The least element of a set, if it has any. -/
def LowestOf (heights : Set Int) : Option Int → Prop
  | none => heights = ∅
  | some height => IsLeast heights height

variable {found : Option Int}

theorem lowestOf_lowest {heights : Set Int} (h : LowestOf heights found) (height : Int) :
    LowestOf (insert height heights) (lowest found height) := by
  cases found with
  | none =>
    obtain rfl : heights = ∅ := h
    show IsLeast (insert height ∅) height
    rw [insert_empty_eq]
    exact isLeast_singleton
  | some found =>
    show IsLeast (insert height heights) (min found height)
    rw [min_comm]
    exact IsLeast.insert height h

/-- The lowest of what was found and what a list adds. -/
theorem lowestOf_foldl {α : Type} {heights : Set Int} (h : LowestOf heights found)
    (entries : List (α × Int)) :
    LowestOf (heights ∪ {height | ∃ entry ∈ entries, entry.2 = height})
      (entries.foldl (fun found entry => lowest found entry.2) found) := by
  induction entries generalizing heights found with
  | nil => simpa using h
  | cons entry rest ih =>
    have hrest := ih (lowestOf_lowest h entry.2)
    have hsets : insert entry.2 heights ∪ {height | ∃ entry ∈ rest, entry.2 = height} =
        heights ∪ {height | ∃ other ∈ entry :: rest, other.2 = height} := by
      ext height
      simp only [Set.mem_union, Set.mem_insert_iff, Set.mem_ofPred_eq, List.mem_cons,
        exists_eq_or_imp, @eq_comm _ entry.2 height]
      tauto
    rwa [hsets] at hrest

/-- A lowest element of a part that reaches below everything is the lowest of the whole. -/
theorem LowestOf.of_part {part heights : Set Int} (h : LowestOf part found) (hpart : part ⊆ heights)
    (hbelow : ∀ height ∈ heights, ∃ lower ∈ part, lower ≤ height) : LowestOf heights found := by
  cases found with
  | none =>
    obtain rfl : part = ∅ := h
    refine Set.eq_empty_of_forall_notMem fun height hheight => ?_
    obtain ⟨lower, hlower, -⟩ := hbelow height hheight
    exact Set.notMem_empty lower hlower
  | some found =>
    have hleast : IsLeast part found := h
    refine ⟨hpart hleast.1, fun height hheight => ?_⟩
    obtain ⟨lower, hlower, hle⟩ := hbelow height hheight
    exact (hleast.2 hlower).trans hle

/-! ## The loop over the notes -/

/-- The note is the key's, or nobody's. -/
def Birthdays.owns (birthdays : Birthdays) (id : Nat) (note : MinedNote) : Prop :=
  note.owner = some (id : Int) ∨ ∀ entry ∈ birthdays, note.owner ≠ some (entry.1 : Int)

instance (birthdays : Birthdays) (id : Nat) (note : MinedNote) :
    Decidable (birthdays.owns id note) :=
  inferInstanceAs (Decidable (_ ∨ _))

/-- The entries have the least of their birthdays and the heights of the notes seen. -/
def Lowered (original : Birthdays) (seen : Set MinedNote) (birthdays : Birthdays) : Prop :=
  List.Forall₂ (fun entry lowered => lowered.1 = entry.1 ∧
    IsLeast (insert entry.2 {height | ∃ note ∈ seen, original.owns entry.1 note ∧
      note.height = height}) lowered.2) original birthdays

theorem Lowered.start (original : Birthdays) : Lowered original ∅ original := by
  refine List.forall₂_same.mpr fun entry _ => ⟨rfl, Set.mem_insert _ _, ?_⟩
  rintro height (rfl | ⟨note, hnote, -⟩)
  · exact le_rfl
  · exact absurd hnote (Set.notMem_empty note)

variable {original birthdays : Birthdays}

theorem Lowered.ids {seen : Set MinedNote} (h : Lowered original seen birthdays) :
    birthdays.map (·.1) = original.map (·.1) := by
  have hids : List.Forall₂ (fun entry lowered : Nat × Int => lowered.1 = entry.1) original
      birthdays := h.imp fun entry lowered hboth => hboth.1
  clear h
  induction hids with
  | nil => rfl
  | cons hfirst _ ih => rw [List.map_cons, List.map_cons, hfirst, ih]

theorem contains_iff {birthdays : Birthdays} {owner : Int} :
    birthdays.contains owner = true ↔ ∃ id : Nat, id ∈ birthdays.map (·.1) ∧ (id : Int) = owner := by
  unfold Birthdays.contains
  simp [List.any_eq_true]

theorem owner_of_ids (hids : birthdays.map (·.1) = original.map (·.1)) (note : MinedNote) :
    birthdays.owner note = original.owner note := by
  have hcontains : ∀ owner, birthdays.contains owner = original.contains owner := by
    intro owner
    rw [Bool.eq_iff_iff, contains_iff, contains_iff, hids]
  unfold Birthdays.owner
  simp only [hcontains]

/-- A note lowers the entries it belongs to. -/
theorem lower_eq (hids : birthdays.map (·.1) = original.map (·.1)) (note : MinedNote) :
    birthdays.lower note = birthdays.map fun entry =>
      if original.owns entry.1 note then (entry.1, min entry.2 note.height) else entry := by
  unfold Birthdays.lower
  rw [owner_of_ids hids]
  cases hfound : original.owner note with
  | none =>
    have hnobody : ∀ entry ∈ original, note.owner ≠ some (entry.1 : Int) := by
      intro entry hentry hsome
      unfold Birthdays.owner at hfound
      rw [hsome, Option.filter_eq_none_iff] at hfound
      exact hfound _ rfl (contains_iff.mpr ⟨entry.1, List.mem_map_of_mem hentry, rfl⟩)
    refine List.map_congr_left fun entry _ => ?_
    have howns : original.owns entry.1 note := Or.inr hnobody
    rw [if_pos howns]
  | some id =>
    obtain ⟨hsome, hcontains⟩ := Option.filter_eq_some_iff.mp hfound
    obtain ⟨knownId, hknown, rfl⟩ := contains_iff.mp hcontains
    obtain ⟨known, hmem, rfl⟩ := List.mem_map.mp hknown
    refine List.map_congr_left fun entry _ => ?_
    by_cases hid : (entry.1 : Int) = (known.1 : Int)
    · have howns : original.owns entry.1 note := Or.inl (hsome.trans (congrArg some hid.symm))
      rw [if_pos (beq_iff_eq.mpr hid), if_pos howns]
    · have hnot : ¬ original.owns entry.1 note := by
        rintro (hother | hnobody)
        · rw [hsome] at hother
          exact hid (Option.some.inj hother).symm
        · exact hnobody known hmem hsome
      rw [if_neg (fun heq => hid (beq_iff_eq.mp heq)), if_neg hnot]

theorem Lowered.step {original birthdays : Birthdays} {seen : Set MinedNote}
    (h : Lowered original seen birthdays) (note : MinedNote) :
    Lowered original (insert note seen) (birthdays.lower note) := by
  rw [lower_eq h.ids note]
  unfold Lowered
  rw [List.forall₂_map_right_iff]
  refine h.imp fun entry lowered hboth => ?_
  obtain ⟨hid, hleast⟩ := hboth
  by_cases howns : original.owns entry.1 note
  · rw [if_pos (by rwa [hid])]
    refine ⟨hid, ?_⟩
    have hsets : insert entry.2 {height | ∃ other ∈ insert note seen, original.owns entry.1 other ∧
          other.height = height} =
        insert note.height (insert entry.2 {height | ∃ other ∈ seen, original.owns entry.1 other ∧
          other.height = height}) := by
      ext height
      simp only [Set.mem_insert_iff, Set.mem_ofPred_eq, exists_eq_or_imp, howns, true_and]
      tauto
    rw [hsets, min_comm]
    exact IsLeast.insert note.height hleast
  · rw [if_neg (by rwa [hid])]
    refine ⟨hid, ?_⟩
    have hsets : {height | ∃ other ∈ insert note seen, original.owns entry.1 other ∧
          other.height = height} =
        {height | ∃ other ∈ seen, original.owns entry.1 other ∧ other.height = height} := by
      ext height
      simp only [Set.mem_insert_iff, Set.mem_ofPred_eq, exists_eq_or_imp, howns, false_and,
        false_or]
    rwa [hsets]

/-- What the loop keeps: the birthdays, and the lowest note below the floor. -/
structure Recovery.Holds (original : Birthdays) (seen : Set MinedNote) (state : Recovery) :
    Prop where
  birthdays : Lowered original seen state.birthdays
  repairedFrom : LowestOf {height | ∃ note ∈ seen, note.height < original.floor ∧
    note.height = height} state.repairedFrom

theorem Recovery.Holds.step {original : Birthdays} {seen : Set MinedNote} {state : Recovery}
    (h : state.Holds original seen) (note : MinedNote) :
    (state.note original.floor (some note)).Holds original (insert note seen) := by
  refine ⟨h.birthdays.step note, ?_⟩
  show LowestOf _ (if note.height < original.floor then _ else _)
  by_cases hbelow : note.height < original.floor
  · rw [if_pos hbelow]
    have hsets : {height | ∃ other ∈ insert note seen, other.height < original.floor ∧
          other.height = height} =
        insert note.height {height | ∃ other ∈ seen, other.height < original.floor ∧
          other.height = height} := by
      ext height
      simp only [Set.mem_insert_iff, Set.mem_ofPred_eq, exists_eq_or_imp, hbelow, true_and]
      tauto
    rw [hsets]
    exact lowestOf_lowest h.repairedFrom note.height
  · rw [if_neg hbelow]
    have hsets : {height | ∃ other ∈ insert note seen, other.height < original.floor ∧
          other.height = height} =
        {height | ∃ other ∈ seen, other.height < original.floor ∧ other.height = height} := by
      ext height
      simp only [Set.mem_insert_iff, Set.mem_ofPred_eq, exists_eq_or_imp, hbelow, false_and,
        false_or]
    rw [hsets]
    exact h.repairedFrom

section Migration

variable {K : Type} {cipher : BlobCipher K} {masterKey : K} {order : IterationOrder (Nat × Int)}
  {now : String} {accountId : Int}

/-- The note is a mined note of the account among the rows. -/
def MinedIn (cipher : BlobCipher K) (masterKey : K) (accountId : Int)
    (rows : List StoredNoteOwner) : Set MinedNote :=
  {note | ∃ row ∈ rows, row.mined cipher masterKey accountId = .ok (some note)}

/-- The loop, where it ends, has seen every mined note of the account. -/
theorem recoverNotes_holds {original : Birthdays} {rows : List StoredNoteOwner}
    {seen : Set MinedNote} {state final : Recovery} (hstate : state.Holds original seen)
    (h : recoverNotes cipher masterKey accountId original.floor state rows = .ok final) :
    final.Holds original (seen ∪ MinedIn cipher masterKey accountId rows) := by
  induction rows generalizing seen state with
  | nil =>
    obtain rfl := Except.ok.inj h
    have hsets : seen ∪ MinedIn cipher masterKey accountId [] = seen := by
      ext note
      simp [MinedIn]
    rwa [hsets]
  | cons row rest ih =>
    rw [recoverNotes] at h
    cases hmined : row.mined cipher masterKey accountId with
    | error e =>
      rw [hmined] at h
      cases h
    | ok mined =>
      rw [hmined] at h
      cases mined with
      | none =>
        have hsets : MinedIn cipher masterKey accountId (row :: rest) =
            MinedIn cipher masterKey accountId rest := by
          ext note
          simp [MinedIn, hmined]
        rw [hsets]
        exact ih hstate h
      | some note =>
        have hsets : seen ∪ MinedIn cipher masterKey accountId (row :: rest) =
            insert note seen ∪ MinedIn cipher masterKey accountId rest := by
          ext other
          simp only [MinedIn, Set.mem_union, Set.mem_ofPred_eq, List.mem_cons, exists_eq_or_imp,
            hmined, Except.ok.injEq, Option.some.injEq, Set.mem_insert_iff, @eq_comm _ note other]
          tauto
        rw [hsets]
        exact ih (hstate.step note) h

/-! ## What is written -/

variable {entry : Nat × Int}

theorem lookup_of_mem {entries : Birthdays} (hnodup : (entries.map (·.1)).Nodup)
    (hentry : entry ∈ entries) : entries.lookup entry.1 = some entry.2 := by
  induction entries with
  | nil => cases hentry
  | cons first rest ih =>
    obtain ⟨hfirst, hrest⟩ := List.nodup_cons.mp hnodup
    rcases List.mem_cons.mp hentry with rfl | hmem
    · exact List.lookup_cons_self
    · have hne : (entry.1 == first.1) = false := by
        rw [beq_eq_false_iff_ne]
        intro heq
        exact hfirst (List.mem_map.mpr ⟨entry, hmem, heq⟩)
      rw [List.lookup_cons, hne]
      exact ih hrest hmem

/-- The entries that are written are those that were lowered. -/
theorem mem_changedBirthdays {original birthdays : Birthdays} :
    entry ∈ BirthdayDb.changedBirthdays order original birthdays ↔
      entry ∈ birthdays ∧ original.lookup entry.1 ≠ some entry.2 := by
  unfold BirthdayDb.changedBirthdays
  rw [List.mem_filter, (order.perm birthdays).mem_iff, bne_iff_ne]

/-- The heights at which a note lay below a floor: the account's, or a key's of the note. -/
def Birthdays.hidden (original : Birthdays) (notes : Set MinedNote) : Set Int :=
  {height | ∃ note ∈ notes, note.height = height ∧ (note.height < original.floor ∨
    ∃ entry ∈ original, original.owns entry.1 note ∧ note.height < entry.2)}

/-- **The latch is at the lowest hidden note.** -/
theorem lowestOf_hidden {original : Birthdays} (hnodup : (original.map (·.1)).Nodup)
    {seen : Set MinedNote} {final : Recovery} (h : final.Holds original seen) :
    LowestOf (original.hidden seen) (BirthdayDb.repairedFrom order original final) := by
  refine (lowestOf_foldl h.repairedFrom _).of_part ?_ ?_
  · rintro height (⟨note, hnote, hbelow, rfl⟩ | ⟨lowered, hlowered, rfl⟩)
    · exact ⟨note, hnote, rfl, Or.inl hbelow⟩
    · obtain ⟨hmem, hchanged⟩ := mem_changedBirthdays.mp hlowered
      obtain ⟨entry, hentry, hid, hleast⟩ := partner_of_mem_right h.birthdays hmem
      rw [hid, lookup_of_mem hnodup hentry] at hchanged
      rcases hleast.1 with hsame | ⟨note, hnote, howns, hheight⟩
      · exact absurd (congrArg some hsame.symm) hchanged
      · have hle : lowered.2 ≤ entry.2 := hleast.2 (Set.mem_insert _ _)
        have hne : lowered.2 ≠ entry.2 := fun heq => hchanged (congrArg some heq.symm)
        exact ⟨note, hnote, hheight, Or.inr ⟨entry, hentry, howns, by omega⟩⟩
  · rintro height ⟨note, hnote, rfl, hbelow | ⟨entry, hentry, howns, hbelow⟩⟩
    · exact ⟨note.height, Or.inl ⟨note, hnote, hbelow, rfl⟩, le_rfl⟩
    · obtain ⟨lowered, hlowered, hid, hleast⟩ := partner_of_mem_left h.birthdays hentry
      have hle : lowered.2 ≤ note.height :=
        hleast.2 (Set.mem_insert_of_mem _ ⟨note, hnote, howns, rfl⟩)
      refine ⟨lowered.2, Or.inr ⟨lowered, mem_changedBirthdays.mpr ⟨hlowered, ?_⟩, rfl⟩, hle⟩
      rw [hid, lookup_of_mem hnodup hentry]
      intro heq
      have hsame := Option.some.inj heq
      omega

/-- A row after the birthdays are written. -/
def writeBirthdays (entries : Birthdays) (row : AccountKeyRow) : AccountKeyRow :=
  entries.foldl (fun row entry =>
    if row.id == entry.1 then { row with birthdayHeight := entry.2 } else row) row

/-- A row is left alone, or gets the birthday of one of its entries. -/
theorem writeBirthdays_cases (entries : Birthdays) (row : AccountKeyRow) :
    ∃ birthday, writeBirthdays entries row = { row with birthdayHeight := birthday } ∧
      ((birthday = row.birthdayHeight ∧ ∀ entry ∈ entries, entry.1 ≠ row.id) ∨
        (row.id, birthday) ∈ entries) := by
  induction entries generalizing row with
  | nil => exact ⟨row.birthdayHeight, rfl, Or.inl ⟨rfl, fun entry hentry => by cases hentry⟩⟩
  | cons entry rest ih =>
    have hfold : writeBirthdays (entry :: rest) row = writeBirthdays rest
        (if row.id == entry.1 then { row with birthdayHeight := entry.2 } else row) := rfl
    rw [hfold]
    by_cases hid : (row.id == entry.1) = true
    · rw [if_pos hid]
      obtain ⟨birthday, hrow, hcases⟩ := ih { row with birthdayHeight := entry.2 }
      refine ⟨birthday, hrow, Or.inr ?_⟩
      rcases hcases with ⟨hsame, -⟩ | hmem
      · have hentry : (row.id, birthday) = entry := Prod.ext (beq_iff_eq.mp hid) hsame
        rw [hentry]
        exact List.mem_cons_self
      · exact List.mem_cons_of_mem entry hmem
    · rw [if_neg hid]
      obtain ⟨birthday, hrow, hcases⟩ := ih row
      refine ⟨birthday, hrow, hcases.imp (fun h => ⟨h.1, ?_⟩) (List.mem_cons_of_mem entry)⟩
      exact List.forall_mem_cons.mpr ⟨fun heq => hid (beq_iff_eq.mpr heq.symm), h.2⟩

theorem foldl_setBirthday (entries : Birthdays) (db : BirthdayDb) :
    (entries.map fun entry => (Step.statement fun tables : BirthdayDb =>
        tables.setBirthday entry : Step BirthdayDb KeyError)).foldl
        (fun tables step => step.effect tables) db =
      { db with keys := (entries.foldl (fun tables entry => tables.setBirthday entry) db).keys } ∧
    (entries.foldl (fun tables entry => tables.setBirthday entry) db).keys.rows =
      db.keys.rows.map (writeBirthdays entries) ∧
    (entries.foldl (fun tables entry => tables.setBirthday entry) db).keys.nextId =
      db.keys.nextId := by
  induction entries generalizing db with
  | nil => exact ⟨rfl, (List.map_id _).symm, rfl⟩
  | cons entry rest ih =>
    obtain ⟨heffect, hrows, hnext⟩ := ih (db.setBirthday entry)
    refine ⟨heffect, ?_, hnext⟩
    rw [List.foldl_cons, hrows]
    show List.map _ (List.map _ _) = _
    rw [List.map_map]
    rfl

/-! ## The call -/

/-- The heights of a key's notes. -/
def BirthdayDb.heightsOf (cipher : BlobCipher K) (masterKey : K) (accountId : Int) (db : BirthdayDb)
    (keyId : Nat) : Set Int :=
  {height | ∃ note ∈ MinedIn cipher masterKey accountId db.notes,
    (db.birthdays accountId).owns keyId note ∧ note.height = height}

/-- The heights of the notes that lay below a floor. -/
def BirthdayDb.hiddenHeights (cipher : BlobCipher K) (masterKey : K) (accountId : Int)
    (db : BirthdayDb) : Set Int :=
  (db.birthdays accountId).hidden (MinedIn cipher masterKey accountId db.notes)

/-- What the row says beside the repair stays; while an obligation is pending so does its reason. -/
structure ObligationsKept (row row' : SpendabilityStateRow) : Prop where
  rescanRequired : row'.rescanRequired = row.rescanRequired
  requiredRescanFromHeight : row'.requiredRescanFromHeight = row.requiredRescanFromHeight
  keyImportGeneration : row'.keyImportGeneration = row.keyImportGeneration
  targetHeight : row'.targetHeight = row.targetHeight
  anchorHeight : row'.anchorHeight = row.anchorHeight
  validatedAnchorHeight : row'.validatedAnchorHeight = row.validatedAnchorHeight
  syncInterrupted : row'.syncInterrupted = row.syncInterrupted
  reasonCode : row.rescanRequired = true ∨ 0 < row.requiredRescanFromHeight →
    row'.reasonCode = row.reasonCode

/-- A repair from a height is latched; one that was to start lower still does. -/
structure Latched (start : Int) (row row' : SpendabilityStateRow) : Prop where
  spendable : row'.spendable = false
  repairQueued : row'.repairQueued = true
  repairFromHeight : (row'.repairFromHeight : Int) =
    if 0 < row.repairFromHeight then min (row.repairFromHeight : Int) start else start

theorem latchRecovery_latched {start : Int} (hstart : 0 < start) (row : SpendabilityStateRow) :
    Latched start row (row.latchRecovery now start) ∧
      ObligationsKept row (row.latchRecovery now start) := by
  refine ⟨⟨rfl, rfl, ?_⟩, ⟨rfl, rfl, rfl, rfl, rfl, rfl, rfl, fun h => if_pos h⟩⟩
  show ((if 0 < row.repairFromHeight ∧ (row.repairFromHeight : Int) < start then
    row.repairFromHeight else start.toNat : Nat) : Int) = _
  by_cases hpending : 0 < row.repairFromHeight
  · by_cases hlower : (row.repairFromHeight : Int) < start
    · rw [if_pos ⟨hpending, hlower⟩, if_pos hpending, min_eq_left hlower.le]
    · rw [if_neg (fun h => hlower h.2), if_pos hpending, min_eq_right (not_lt.mp hlower),
        Int.toNat_of_nonneg hstart.le]
  · rw [if_neg (fun h => hpending h.1), if_neg hpending, Int.toNat_of_nonneg hstart.le]

/-- A mined note has a height. -/
theorem height_pos_of_mined {rows : List StoredNoteOwner} {note : MinedNote}
    (h : note ∈ MinedIn cipher masterKey accountId rows) : 0 < note.height := by
  obtain ⟨row, -, h⟩ := h
  unfold StoredNoteOwner.mined at h
  obtain ⟨noteAccount, -, h⟩ := bind_eq_ok h
  by_cases haccount : noteAccount ≠ accountId
  · rw [if_pos haccount] at h
    cases h
  · rw [if_neg haccount] at h
    obtain ⟨height, -, h⟩ := bind_eq_ok h
    by_cases hheight : height ≤ 0
    · rw [if_pos hheight] at h
      cases h
    · rw [if_neg hheight] at h
      obtain ⟨owner, -, h⟩ := bind_eq_ok h
      obtain rfl := Option.some.inj (Except.ok.inj h)
      exact not_le.mp hheight

/-- What a migration that goes through leaves: birthdays at or below the heights of the keys' notes,
its marker, and a repair from the lowest note that was hidden. -/
structure Recovered (cipher : BlobCipher K) (masterKey : K) (now : String) (accountId : Int)
    (db after : BirthdayDb) : Prop where
  /-- A key of the account gets the least of its birthday and the heights of its notes. -/
  keys : List.Forall₂ (fun key key' => ∃ birthday, key' = { key with birthdayHeight := birthday } ∧
    if key.accountId = accountId then
      IsLeast (insert key.birthdayHeight (db.heightsOf cipher masterKey accountId key.id)) birthday
    else birthday = key.birthdayHeight) db.keys.rows after.keys.rows
  nextId : after.keys.nextId = db.keys.nextId
  notes : after.notes = db.notes
  marker : after.migrationState = db.migrationState ++ [recoveryMarker accountId]
  /-- The row is latched at the lowest hidden note, if there is one, and left alone if not. -/
  state : (db.hiddenHeights cipher masterKey accountId = ∅ ∧
      after.spendabilityState = db.spendabilityState) ∨
    ∃ start row, IsLeast (db.hiddenHeights cipher masterKey accountId) start ∧
      db.spendabilityState = some row ∧
      after.spendabilityState = some (row.latchRecovery now start)

theorem birthdays_nodup (db : BirthdayDb) : ((db.birthdays accountId).map (·.1)).Nodup := by
  unfold BirthdayDb.birthdays
  rw [List.map_map]
  exact db.keys.ids_nodup.sublist (List.filter_sublist.map _)

theorem mem_birthdays {db : BirthdayDb} :
    entry ∈ db.birthdays accountId ↔ ∃ row ∈ db.keys.rows, row.accountId = accountId ∧
      entry = (row.id, row.birthdayHeight) := by
  unfold BirthdayDb.birthdays AccountKeys.ofAccount
  simp only [List.mem_map, List.mem_filter, beq_iff_eq, and_assoc, @eq_comm _ entry]

/-- The steps that write, where they succeed. -/
theorem recovered_of_writes {db : BirthdayDb} {recovery : Recovery}
    (hrecovery : db.recovered cipher masterKey accountId = .ok recovery)
    (herrors : ∀ step ∈ db.recoveryWrites order now accountId (db.birthdays accountId) recovery,
      step.error = none) :
    Recovered cipher masterKey now accountId db
      ((db.recoveryWrites order now accountId (db.birthdays accountId) recovery).foldl
        (fun tables step => step.effect tables) db) := by
  have hholds : recovery.Holds (db.birthdays accountId)
      (MinedIn cipher masterKey accountId db.notes) := by
    have hstart : Recovery.Holds (db.birthdays accountId) ∅ ⟨db.birthdays accountId, none⟩ := by
      refine ⟨Lowered.start _, Set.eq_empty_of_forall_notMem ?_⟩
      rintro height ⟨note, hnote, -⟩
      exact Set.notMem_empty note hnote
    have hfinal := recoverNotes_holds hstart hrecovery
    rwa [Set.empty_union] at hfinal
  have hlowest := @lowestOf_hidden order _ (birthdays_nodup db) _ _ hholds
  have hids : (recovery.birthdays.map (·.1)).Nodup := by
    rw [hholds.birthdays.ids]
    exact birthdays_nodup db
  unfold BirthdayDb.recoveryWrites at herrors ⊢
  generalize hchanged : BirthdayDb.changedBirthdays order (db.birthdays accountId)
    recovery.birthdays = changed at herrors ⊢
  obtain ⟨heffect, hrows, hnext⟩ := foldl_setBirthday changed db
  have hkeys : List.Forall₂ (fun key key' => ∃ birthday,
      key' = { key with birthdayHeight := birthday } ∧
      if key.accountId = accountId then
        IsLeast (insert key.birthdayHeight (db.heightsOf cipher masterKey accountId key.id)) birthday
      else birthday = key.birthdayHeight) db.keys.rows
      (db.keys.rows.map (writeBirthdays changed)) := by
    rw [List.forall₂_map_right_iff, List.forall₂_same]
    intro row hrow
    obtain ⟨birthday, hwritten, hcases⟩ := writeBirthdays_cases changed row
    refine ⟨birthday, hwritten, ?_⟩
    by_cases haccount : row.accountId = accountId
    · rw [if_pos haccount]
      obtain ⟨lowered, hlowered, hid, hleast⟩ := partner_of_mem_left hholds.birthdays
        (mem_birthdays.mpr ⟨row, hrow, haccount, rfl⟩)
      have hbirthday : birthday = lowered.2 := by
        rcases hcases with ⟨rfl, hnone⟩ | hmem
        · by_contra hne
          refine hnone lowered ?_ hid
          rw [← hchanged, mem_changedBirthdays, hid]
          refine ⟨hlowered, fun heq => ?_⟩
          have hentry : (row.id, row.birthdayHeight) ∈ db.birthdays accountId :=
            mem_birthdays.mpr ⟨row, hrow, haccount, rfl⟩
          rw [lookup_of_mem (birthdays_nodup db) hentry] at heq
          exact hne (Option.some.inj heq)
        · rw [← hchanged, mem_changedBirthdays] at hmem
          exact congrArg Prod.snd (List.inj_on_of_nodup_map hids hmem.1 hlowered hid.symm)
      rw [hbirthday]
      exact hleast
    · rw [if_neg haccount]
      rcases hcases with ⟨rfl, -⟩ | hmem
      · rfl
      · exfalso
        rw [← hchanged, mem_changedBirthdays] at hmem
        obtain ⟨entry, hentry, hid, -⟩ := partner_of_mem_right hholds.birthdays hmem.1
        obtain ⟨other, hother, hsame, rfl⟩ := mem_birthdays.mp hentry
        rw [AutoTable.row_eq_of_id hrow hother hid] at haccount
        exact haccount hsame
  rw [List.foldl_append, List.foldl_append, heffect]
  cases hrepaired : BirthdayDb.repairedFrom order (db.birthdays accountId) recovery with
  | none =>
    rw [hrepaired] at hlowest
    exact ⟨by rw [← hrows] at hkeys; exact hkeys, hnext, rfl, rfl, Or.inl ⟨hlowest, rfl⟩⟩
  | some start =>
    rw [hrepaired] at hlowest herrors
    cases hstate : db.spendabilityState with
    | none =>
      have hfailed := herrors (.value (some (.storage
        (.storage "Spendability state row is unavailable")))) (by
          simp [BirthdayDb.latchSteps, hstate])
      cases hfailed
    | some row =>
      exact ⟨by rw [← hrows] at hkeys; exact hkeys, hnext, rfl, rfl,
        Or.inr ⟨start, row, hlowest, hstate, rfl⟩⟩

/-- **No order of the notes can be told from the result.** -/
theorem Recovered.unique {db after after' : BirthdayDb} {notes : List StoredNoteOwner}
    (h : Recovered cipher masterKey now accountId db after) (hperm : notes.Perm db.notes)
    (h' : Recovered cipher masterKey now accountId { db with notes := notes } after') :
    after' = { after with notes := notes } := by
  have hmined : MinedIn cipher masterKey accountId notes =
      MinedIn cipher masterKey accountId db.notes := by
    ext note
    simp only [MinedIn, Set.mem_ofPred_eq, hperm.mem_iff]
  have hheights : ∀ keyId, ({ db with notes := notes } : BirthdayDb).heightsOf cipher masterKey
      accountId keyId = db.heightsOf cipher masterKey accountId keyId := by
    intro keyId
    unfold BirthdayDb.heightsOf
    rw [hmined]
    rfl
  have hhidden : ({ db with notes := notes } : BirthdayDb).hiddenHeights cipher masterKey
      accountId = db.hiddenHeights cipher masterKey accountId := by
    unfold BirthdayDb.hiddenHeights
    rw [hmined]
    rfl
  have hrows : after'.keys.rows = after.keys.rows := by
    have hkeys' := h'.keys
    simp only [hheights] at hkeys'
    refine Relator.RightUnique.forall₂ ?_ hkeys' h.keys
    rintro key left right ⟨birthday, rfl, hleft⟩ ⟨birthday', rfl, hright⟩
    by_cases haccount : key.accountId = accountId
    · rw [if_pos haccount] at hleft hright
      rw [IsLeast.unique hleft hright]
    · rw [if_neg haccount] at hleft hright
      rw [hleft, hright]
  have hstate : after'.spendabilityState = after.spendabilityState := by
    rcases h'.state with ⟨hempty', hsame'⟩ | ⟨start', row', hleast', hrow', hlatched'⟩
    · rcases h.state with ⟨-, hsame⟩ | ⟨start, row, hleast, -, -⟩
      · rw [hsame', hsame]
      · rw [hhidden] at hempty'
        have hmem := hleast.1
        rw [hempty'] at hmem
        exact absurd hmem (Set.notMem_empty start)
    · rw [hhidden] at hleast'
      rcases h.state with ⟨hempty, -⟩ | ⟨start, row, hleast, hrow, hlatched⟩
      · have hmem := hleast'.1
        rw [hempty] at hmem
        exact absurd hmem (Set.notMem_empty start')
      · have hsame : some row' = some row := hrow'.symm.trans hrow
        rw [hlatched', hlatched, Option.some.inj hsame, hleast'.unique hleast]
  have hkeys : after'.keys = after.keys :=
    AutoTable.eq_of_rows hrows (h'.nextId.trans h.nextId.symm)
  have hmarker : after'.migrationState = after.migrationState := h'.marker.trans h.marker.symm
  have hnotes : after'.notes = notes := h'.notes
  cases after'
  cases after
  dsimp only at hkeys hnotes hstate hmarker
  rw [hkeys, hnotes, hstate, hmarker]

section Call

variable {refused : Nat → Option Refusal} {db : BirthdayDb} {clock : Nat}

/-- The call reads, and writes in one transaction if the account has keys and no marker. -/
theorem ensureNoteBirthdayRecoveryMigration_cases (conn : Conn BirthdayDb) :
    ((ensureNoteBirthdayRecoveryMigration cipher masterKey order now accountId refused
          conn).2.begun = conn.begun ∧
      (ensureNoteBirthdayRecoveryMigration cipher masterKey order now accountId refused
          conn).2.tables = conn.tables ∧
      ((ensureNoteBirthdayRecoveryMigration cipher masterKey order now accountId refused
          conn).1 = none →
        conn.tables.applied accountId = true ∨ conn.tables.birthdays accountId = [])) ∨
    (conn.tables.applied accountId = false ∧ conn.tables.birthdays accountId ≠ [] ∧
      ensureNoteBirthdayRecoveryMigration cipher masterKey order now accountId refused conn =
      runTransaction refused
        ⟨BirthdayDb.recoverySteps cipher masterKey order now accountId, ⟨true, true⟩⟩
        { conn with clock := conn.clock + 1 }) := by
  unfold ensureNoteBirthdayRecoveryMigration birthdayRecoveryProgram
  cases hselect : refused conn.clock with
  | some refusal =>
    left
    simp [Program.run, hselect]
  | none =>
    cases happlied : conn.tables.applied accountId with
    | true =>
      left
      simp [Program.run, hselect, happlied]
    | false =>
      by_cases hempty : (conn.tables.birthdays accountId).isEmpty = true
      · left
        have hnil : conn.tables.birthdays accountId = [] := List.isEmpty_iff.mp hempty
        cases hbegin : refused (conn.clock + 1) <;> cases hmarker : refused (conn.clock + 1 + 1) <;>
          cases hkeys : refused (conn.clock + 1 + 1 + 1) <;>
          simp [Program.run, hselect, happlied, hnil, hbegin, hmarker, hkeys]
      · right
        refine ⟨rfl, fun hnil => hempty (List.isEmpty_iff.mpr hnil), ?_⟩
        simp only [Program.run, hselect, happlied, hempty, Option.isSome_none, Bool.false_eq_true,
          if_false]
        cases runTransaction refused
            ⟨BirthdayDb.recoverySteps cipher masterKey order now accountId, ⟨true, true⟩⟩
            { conn with clock := conn.clock + 1 } with
        | mk error after => cases error <;> rfl

/-- A transaction that commits has recovered the birthdays. -/
theorem recovered_of_runTransaction {conn : Conn BirthdayDb}
    (h : (runTransaction refused
      ⟨BirthdayDb.recoverySteps cipher masterKey order now accountId, ⟨true, true⟩⟩ conn).1 =
        none) :
    (runTransaction refused
      ⟨BirthdayDb.recoverySteps cipher masterKey order now accountId, ⟨true, true⟩⟩
        conn).2.begun = none ∧
    Recovered cipher masterKey now accountId conn.tables
      (runTransaction refused
        ⟨BirthdayDb.recoverySteps cipher masterKey order now accountId, ⟨true, true⟩⟩
        conn).2.tables := by
  obtain ⟨herrors, hbegun, htables⟩ := runTransaction_ok h
  refine ⟨hbegun, ?_⟩
  rw [htables]
  dsimp only at herrors ⊢
  unfold BirthdayDb.recoverySteps at herrors ⊢
  cases hrecovered : conn.tables.recovered cipher masterKey accountId with
  | error e =>
    rw [hrecovered] at herrors
    have hfailed := herrors (.value (some e)) (List.mem_append_right _ (List.mem_singleton_self _))
    cases hfailed
  | ok recovery =>
    rw [hrecovered] at herrors
    exact recovered_of_writes hrecovered fun step hstep =>
      herrors step (List.mem_append_right _ hstep)

end Call

/-- After the recovery every mined note is at or above the birthdays of its keys. -/
theorem Recovered.covers {db after : BirthdayDb}
    (h : Recovered cipher masterKey now accountId db after) {note : MinedNote}
    (hnote : note ∈ MinedIn cipher masterKey accountId db.notes) {key : AccountKeyRow}
    (hkey : key ∈ after.keys.rows) (haccount : key.accountId = accountId)
    (howns : (db.birthdays accountId).owns key.id note) : key.birthdayHeight ≤ note.height := by
  obtain ⟨row, -, birthday, rfl, hbirthday⟩ := partner_of_mem_right h.keys hkey
  rw [if_pos haccount] at hbirthday
  exact hbirthday.2 (Set.mem_insert_of_mem _ ⟨note, hnote, howns, rfl⟩)

/-- Every key stays, with a birthday no higher than before. -/
theorem Recovered.lowers {db after : BirthdayDb}
    (h : Recovered cipher masterKey now accountId db after) :
    List.Forall₂ (fun key key' => key' = { key with birthdayHeight := key'.birthdayHeight } ∧
      key'.birthdayHeight ≤ key.birthdayHeight) db.keys.rows after.keys.rows := by
  refine h.keys.imp fun key key' hboth => ?_
  obtain ⟨birthday, rfl, hbirthday⟩ := hboth
  refine ⟨rfl, ?_⟩
  by_cases haccount : key.accountId = accountId
  · rw [if_pos haccount] at hbirthday
    exact hbirthday.2 (Set.mem_insert _ _)
  · rw [if_neg haccount] at hbirthday
    exact hbirthday.le

/-- The spendability row after the recovery. -/
theorem Recovered.latches {db after : BirthdayDb}
    (h : Recovered cipher masterKey now accountId db after) :
    (db.hiddenHeights cipher masterKey accountId = ∅ ∧
      after.spendabilityState = db.spendabilityState) ∨
    ∃ start row row', IsLeast (db.hiddenHeights cipher masterKey accountId) start ∧
      db.spendabilityState = some row ∧ after.spendabilityState = some row' ∧
      Latched start row row' ∧ ObligationsKept row row' := by
  refine h.state.imp_right ?_
  rintro ⟨start, row, hleast, hrow, hlatched⟩
  obtain ⟨note, hnote, hheight, -⟩ := hleast.1
  have hstart : 0 < start := hheight ▸ height_pos_of_mined hnote
  exact ⟨start, row, _, hleast, hrow, hlatched, latchRecovery_latched hstart row⟩

end Migration

/-- **Birthdays recovered from notes.** A call that fails changes nothing. One that succeeds for an
account with keys, whose marker is not set, leaves every mined note at or above the birthdays of its
keys, and no birthday higher than it was; it latches a repair at the lowest note that lay below a
floor, if there is one, and leaves the spendability row alone if not, with the obligations the row
had; another call then changes nothing; and from the same notes in another order, with the keys
written in another order, a call ends with the same tables. -/
theorem note_birthday_recovery {K : Type} (cipher : BlobCipher K) (masterKey : K)
    (order : IterationOrder (Nat × Int)) (now : String) (accountId : Int) (db : BirthdayDb)
    (refused : Nat → Option Refusal) (clock : Nat) (failed : Option (Failure KeyError))
    (conn : Conn BirthdayDb)
    (h : ensureNoteBirthdayRecoveryMigration cipher masterKey order now accountId refused
      ⟨db, none, clock⟩ = (failed, conn)) :
    conn.begun = none ∧
    (failed.isSome = true → conn.tables = db) ∧
    (failed = none → db.applied accountId = true ∨ db.birthdays accountId = [] →
      conn.tables = db) ∧
    (failed = none → db.applied accountId = false → db.birthdays accountId ≠ [] →
      (∀ note ∈ MinedIn cipher masterKey accountId db.notes, ∀ key ∈ conn.tables.keys.rows,
        key.accountId = accountId → (db.birthdays accountId).owns key.id note →
        key.birthdayHeight ≤ note.height) ∧
      List.Forall₂ (fun key key' => key' = { key with birthdayHeight := key'.birthdayHeight } ∧
        key'.birthdayHeight ≤ key.birthdayHeight) db.keys.rows conn.tables.keys.rows ∧
      ((db.hiddenHeights cipher masterKey accountId = ∅ ∧
          conn.tables.spendabilityState = db.spendabilityState) ∨
        ∃ start row row', IsLeast (db.hiddenHeights cipher masterKey accountId) start ∧
          db.spendabilityState = some row ∧ conn.tables.spendabilityState = some row' ∧
          Latched start row row' ∧ ObligationsKept row row') ∧
      (∀ (later : Nat → Option Refusal) (other : IterationOrder (Nat × Int)) (laterNow : String)
        (tick : Nat),
        (ensureNoteBirthdayRecoveryMigration cipher masterKey other laterNow accountId later
          ⟨conn.tables, none, tick⟩).2.tables = conn.tables) ∧
      ∀ (notes : List StoredNoteOwner) (other : IterationOrder (Nat × Int))
        (elsewhere : Nat → Option Refusal) (tick : Nat), notes.Perm db.notes →
        (ensureNoteBirthdayRecoveryMigration cipher masterKey other now accountId elsewhere
          ⟨{ db with notes := notes }, none, tick⟩).1 = none →
        (ensureNoteBirthdayRecoveryMigration cipher masterKey other now accountId elsewhere
          ⟨{ db with notes := notes }, none, tick⟩).2.tables =
            { conn.tables with notes := notes }) := by
  have hcases := @ensureNoteBirthdayRecoveryMigration_cases K cipher masterKey order now accountId
    refused ⟨db, none, clock⟩
  rw [h] at hcases
  rcases hcases with ⟨hbegun, htables, hdone⟩ | ⟨happlied, hkeys, hrun⟩
  · refine ⟨hbegun, fun _ => htables, fun _ _ => htables, fun hok happlied hkeys => ?_⟩
    rcases hdone hok with hmarked | hnone
    · rw [happlied] at hmarked
      cases hmarked
    · exact absurd hnone hkeys
  cases failed with
  | some failure =>
    have hfails : (runTransaction refused
        ⟨BirthdayDb.recoverySteps cipher masterKey order now accountId, ⟨true, true⟩⟩
        ⟨db, none, clock + 1⟩).1.isSome = true := by
      rw [← hrun]
      rfl
    have herror := runTransaction_error rfl rfl hfails
    rw [← hrun] at herror
    exact ⟨herror.1, fun _ => herror.2, nofun, nofun⟩
  | none =>
    have hcommits : (runTransaction refused
        ⟨BirthdayDb.recoverySteps cipher masterKey order now accountId, ⟨true, true⟩⟩
        ⟨db, none, clock + 1⟩).1 = none := by
      rw [← hrun]
    have hrecovered := recovered_of_runTransaction hcommits
    rw [← hrun] at hrecovered
    obtain ⟨hbegun, hrecovered⟩ := hrecovered
    refine ⟨hbegun, nofun, fun _ hdone => ?_, fun _ _ _ =>
      ⟨fun note hnote key hkey haccount howns => hrecovered.covers hnote hkey haccount howns,
        hrecovered.lowers, hrecovered.latches, ?_, ?_⟩⟩
    · rcases hdone with hmarked | hnone
      · have hnot : db.applied accountId = false := happlied
        rw [hmarked] at hnot
        cases hnot
      · exact absurd hnone hkeys
    · intro later other laterNow tick
      have hmarked : conn.tables.applied accountId = true := by
        unfold BirthdayDb.applied
        rw [hrecovered.marker, List.contains_iff_mem]
        exact List.mem_append_right _ (List.mem_singleton_self _)
      rcases @ensureNoteBirthdayRecoveryMigration_cases K cipher masterKey other laterNow accountId
        later ⟨conn.tables, none, tick⟩ with ⟨-, htables, -⟩ | ⟨hnot, -⟩
      · exact htables
      · have hnot : conn.tables.applied accountId = false := hnot
        rw [hmarked] at hnot
        cases hnot
    · intro notes other elsewhere tick hperm hok
      rcases @ensureNoteBirthdayRecoveryMigration_cases K cipher masterKey other now accountId
        elsewhere ⟨{ db with notes := notes }, none, tick⟩ with ⟨-, -, hdone⟩ | ⟨-, -, hother⟩
      · rcases hdone hok with hmarked | hnone
        · have hnot : db.applied accountId = false := happlied
          have hmarked : db.applied accountId = true := hmarked
          rw [hmarked] at hnot
          cases hnot
        · exact absurd hnone hkeys
      · rw [hother] at hok ⊢
        exact hrecovered.unique hperm (recovered_of_runTransaction hok).2

/-- The map's own order. -/
def storedOrder : IterationOrder (Nat × Int) := ⟨id, fun _ => .refl _⟩

/-- A wallet whose two keys are taken to start above a note of the first. -/
def hiddenNoteDb : BirthdayDb where
  keys := AccountKeys.insert (oneByteKey 8 800)
    (AccountKeys.insert (oneByteKey 7 500) AutoTable.empty)
  notes := [⟨7 :: i64ToLeBytes 1, 7 :: i64ToLeBytes 100, some (7 :: i64ToLeBytes 1)⟩]
  spendabilityState := some (SpendabilityStateRow.default "t")
  migrationState := []

/-- The first key starts at its note, and a repair from there is latched. -/
theorem note_birthday_recovery_hidden_note :
    ∃ conn, ensureNoteBirthdayRecoveryMigration prefixCipher 7 storedOrder "t" 1 (fun _ => none)
        ⟨hiddenNoteDb, none, 0⟩ = (none, conn) ∧
      conn.tables.keys.rows.map (·.birthdayHeight) = [100, 800] ∧
      conn.tables.spendabilityState.map (·.repairFromHeight) = some 100 ∧
      ∀ (later : Nat → Option Refusal) (other : IterationOrder (Nat × Int)) (laterNow : String)
        (tick : Nat),
        (ensureNoteBirthdayRecoveryMigration prefixCipher 7 other laterNow 1 later
          ⟨conn.tables, none, tick⟩).2.tables = conn.tables := by
  refine ⟨_, rfl, by decide +kernel, by decide +kernel, ?_⟩
  exact ((note_birthday_recovery prefixCipher 7 storedOrder "t" 1 hiddenNoteDb (fun _ => none) 0 none
    _ rfl).2.2.2 rfl (by decide +kernel) (by decide +kernel)).2.2.2.1

end StashiWallet
