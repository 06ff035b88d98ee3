import StashiWallet.ReceivedNotes

/-!
# The rows of a received output

The record of an output is the fold of its rows (`Summary`): the value they share, the largest
height, the address any of them names, and the note of the first row that stores one. A listing
is refused for two rows of one output that disagree on the value or the address, and for every
such pair some order of the rows is refused for it (`ReceivedConflict.exists_order`).
-/

namespace StashiWallet

/-! ## Byte orders -/

/-- The bytes an id is displayed as. -/
def displayBytes (transactions : List TransactionRow) (txid : Bytes) : Bytes :=
  if metadataUsesRaw transactions txid then txid.reverse else txid

/-- The transactions tell in which byte order an id is stored: one of the two is known, or both
are, at different heights. -/
def ByteOrderTold (transactions : List TransactionRow) (txid : Bytes) : Prop :=
  txid.reverse = txid ∨
    match transactionOf transactions (hexEncode txid),
      transactionOf transactions (hexEncode txid.reverse) with
    | none, none => False
    | some raw, some reversed => raw.height ≠ reversed.height
    | _, _ => True

theorem metadataUsesRaw_eq (transactions : List TransactionRow) (txid : Bytes) :
    metadataUsesRaw transactions txid =
      match transactionOf transactions (hexEncode txid),
        transactionOf transactions (hexEncode txid.reverse) with
      | none, some _ => false
      | some raw, some reversed => decide (reversed.height ≤ raw.height)
      | _, none => true := by
  unfold metadataUsesRaw getTransactionHeight getTransactionTimestamp txidHexFromBytes
  dsimp only
  cases hraw : transactionOf transactions (hexEncode txid) with
  | none => cases hrev : transactionOf transactions (hexEncode txid.reverse) <;> simp
  | some raw =>
    cases hrev : transactionOf transactions (hexEncode txid.reverse) with
    | none => simp
    | some reversed =>
      simp only [Option.map_some, Option.getD_some, Option.isSome_some, Bool.or_self,
        Bool.not_true, Bool.or_false, Bool.and_true]
      by_cases hlt : reversed.height < raw.height
      · simp [hlt, hlt.le]
      · by_cases heq : raw.height = reversed.height
        · simp [heq]
        · have hnle : ¬ reversed.height ≤ raw.height := by omega
          simp [hlt, heq, hnle]

/-- Told which byte order is which, both are displayed alike, and only then. -/
theorem byteOrderTold_iff {transactions : List TransactionRow} {txid : Bytes} :
    ByteOrderTold transactions txid ↔
      displayBytes transactions txid.reverse = displayBytes transactions txid := by
  unfold ByteOrderTold displayBytes
  rw [metadataUsesRaw_eq, metadataUsesRaw_eq, List.reverse_reverse]
  by_cases hpal : txid.reverse = txid
  · simp [hpal]
  · have hpal' : txid ≠ txid.reverse := Ne.symm hpal
    cases hraw : transactionOf transactions (hexEncode txid) with
    | none => cases hrev : transactionOf transactions (hexEncode txid.reverse) <;> simp [hpal, hpal']
    | some raw =>
      cases hrev : transactionOf transactions (hexEncode txid.reverse) with
      | none => simp
      | some reversed =>
        by_cases hlt : raw.height < reversed.height
        · simp [hpal, hlt.le, hlt.not_ge, hlt.ne]
        · by_cases heq : raw.height = reversed.height
          · simp [hpal, hpal', heq]
          · have hgt : reversed.height < raw.height := by omega
            simp [hpal, hgt.le, hgt.not_ge, heq]

/-- The time stored for a displayed id. -/
def storedTimestamp (transactions : List TransactionRow) (display : Bytes) : Option Int :=
  (getTransactionTimestamp transactions (hexEncode display.reverse)).or
    (getTransactionTimestamp transactions (hexEncode display))

/-- The height stored for a displayed id, in either byte order. -/
def storedHeight (transactions : List TransactionRow) (display : Bytes) : Int :=
  max ((getTransactionHeight transactions (hexEncode display)).getD 0)
    ((getTransactionHeight transactions (hexEncode display.reverse)).getD 0)

variable {transactions : List TransactionRow}

/-! ## One row -/

theorem receivedCandidate_key (note : NoteRow) :
    (receivedCandidate transactions note).key =
      (hexEncode (displayBytes transactions note.txid), note.noteType, note.outputIndex) := by
  unfold receivedCandidate ReceivedNoteRecord.key displayBytes txidHexFromBytes
  cases metadataUsesRaw transactions note.txid <;> rfl

theorem receivedCandidate_timestamp (note : NoteRow) :
    (receivedCandidate transactions note).timestamp =
      storedTimestamp transactions (displayBytes transactions note.txid) := by
  unfold receivedCandidate storedTimestamp displayBytes txidHexFromBytes
  cases metadataUsesRaw transactions note.txid
  · rfl
  · simp

theorem receivedCandidate_height (note : NoteRow) :
    (receivedCandidate transactions note).height =
      max note.height (storedHeight transactions (displayBytes transactions note.txid)) := by
  unfold receivedCandidate storedHeight displayBytes txidHexFromBytes
  cases metadataUsesRaw transactions note.txid
  · simp [max_assoc]
  · simp [max_assoc, max_comm]

/-! ## The rows of one output -/

/-- What the record of some rows of one output holds. -/
structure Summary (group : List ReceivedNoteRecord) (record : ReceivedNoteRecord) : Prop where
  key : ∀ a ∈ group, a.key = record.key
  value : ∀ a ∈ group, a.value = record.value
  height : (∀ a ∈ group, a.height ≤ record.height) ∧ ∃ a ∈ group, a.height = record.height
  timestamp : record.timestamp = group.findSome? (·.timestamp)
  addressId : ∀ a ∈ group, ∀ id, a.addressId = some id → record.addressId = some id
  addressSource : ∃ a ∈ group, a.addressId = record.addressId
  note : record.note = group.findSome? (·.note)

theorem Summary.singleton (record : ReceivedNoteRecord) : Summary [record] record where
  key := by simp
  value := by simp
  height := by simp
  timestamp := by cases h : record.timestamp <;> simp [h]
  addressId := by simp
  addressSource := by simp
  note := by cases h : record.note <;> simp [h]

/-- A merge that succeeds found the same value and no other address. -/
theorem mergeReceived_eq_ok {existing candidate record : ReceivedNoteRecord}
    (h : mergeReceived existing candidate = .ok record) :
    existing.value = candidate.value ∧
    (∀ id id', existing.addressId = some id → candidate.addressId = some id' → id = id') ∧
    record = { existing with
      height := max existing.height candidate.height
      timestamp := existing.timestamp.or candidate.timestamp
      addressId := existing.addressId.or candidate.addressId
      note := existing.note.or candidate.note } := by
  unfold mergeReceived at h
  split at h
  · cases h
  · rename_i hvalue
    split at h
    · cases h
    · rename_i haddress
      refine ⟨not_ne_iff.mp hvalue, ?_, (Except.ok.inj h).symm⟩
      intro id id' hid hid'
      rw [hid, hid'] at haddress
      simpa using haddress

theorem Summary.merge {group : List ReceivedNoteRecord} {existing candidate record :
    ReceivedNoteRecord} (hgroup : Summary group existing) (hkey : candidate.key = existing.key)
    (h : mergeReceived existing candidate = .ok record) :
    Summary (group ++ [candidate]) record := by
  obtain ⟨hvalue, haddress, rfl⟩ := mergeReceived_eq_ok h
  constructor
  case key =>
    intro a ha
    rcases List.mem_append.mp ha with ha | ha
    · exact hgroup.key a ha
    · rw [List.mem_singleton.mp ha]
      exact hkey
  case value =>
    intro a ha
    rcases List.mem_append.mp ha with ha | ha
    · exact hgroup.value a ha
    · rw [List.mem_singleton.mp ha]
      exact hvalue.symm
  case height =>
    obtain ⟨hle, source, hsource, heq⟩ := hgroup.height
    refine ⟨fun a ha => ?_, ?_⟩
    · show a.height ≤ max existing.height candidate.height
      rcases List.mem_append.mp ha with ha | ha
      · exact (hle a ha).trans (le_max_left _ _)
      · rw [List.mem_singleton.mp ha]
        exact le_max_right _ _
    · by_cases hmax : existing.height ≤ candidate.height
      · exact ⟨candidate, by simp, (max_eq_right hmax).symm⟩
      · exact ⟨source, List.mem_append_left _ hsource,
          heq.trans (max_eq_left (le_of_not_ge hmax)).symm⟩
  case timestamp =>
    show existing.timestamp.or candidate.timestamp = _
    rw [hgroup.timestamp, List.findSome?_append]
    cases h : candidate.timestamp <;> simp [h]
  case addressId =>
    intro a ha id hid
    show existing.addressId.or candidate.addressId = some id
    rcases List.mem_append.mp ha with ha | ha
    · rw [hgroup.addressId a ha id hid, Option.some_or]
    · rw [List.mem_singleton.mp ha] at hid
      cases hold : existing.addressId with
      | none => rw [Option.none_or, hid]
      | some id' => rw [Option.some_or, haddress id' id hold hid]
  case addressSource =>
    show ∃ a ∈ group ++ [candidate], a.addressId = existing.addressId.or candidate.addressId
    cases hold : existing.addressId with
    | none => exact ⟨candidate, by simp, by simp⟩
    | some id =>
      obtain ⟨source, hsource, heq⟩ := hgroup.addressSource
      exact ⟨source, List.mem_append_left _ hsource, by rw [heq, hold, Option.some_or]⟩
  case note =>
    show existing.note.or candidate.note = _
    rw [hgroup.note, List.findSome?_append]
    cases h : candidate.note <;> simp [h]

/-- The fold of rows of one output sums them up. -/
theorem summary_of_foldGroup {group : List ReceivedNoteRecord} {record : ReceivedNoteRecord}
    {key : ReceivedKey} (hkey : ∀ a ∈ group, a.key = key)
    (h : KeyedFold.foldGroup id mergeReceived group = .ok (some record)) :
    Summary group record := by
  induction group using List.reverseRecOn generalizing record with
  | nil => cases h
  | append_singleton group candidate ih =>
    rw [KeyedFold.foldGroup_concat] at h
    obtain ⟨value, hvalue, hext⟩ := bind_eq_ok h
    obtain ⟨merged, hmerged, heq⟩ := map_eq_ok hext
    obtain rfl := Option.some.inj heq
    cases value with
    | none =>
      obtain rfl := KeyedFold.foldGroup_eq_none hvalue
      obtain rfl : candidate = merged := Except.ok.inj hmerged
      exact Summary.singleton candidate
    | some existing =>
      have hgroup := ih (fun a ha => hkey a (List.mem_append_left _ ha)) hvalue
      refine hgroup.merge ?_ hmerged
      obtain ⟨a, ha, -⟩ := hgroup.addressSource
      rw [← hgroup.key a ha, hkey a (List.mem_append_left _ ha), hkey candidate (by simp)]

/-! ## Refusals -/

/-- Two records filed together disagree, on their values or on the addresses they name. -/
def ReceivedNoteRecord.Conflict (a b : ReceivedNoteRecord) (message : String) : Prop :=
  a.key = b.key ∧
    ((a.value ≠ b.value ∧ message = receivedConflict "values" a.key) ∨
      (a.value = b.value ∧
        (∃ id id', a.addressId = some id ∧ b.addressId = some id' ∧ id ≠ id') ∧
        message = receivedConflict "addresses" a.key))

theorem mergeReceived_eq_error {existing candidate : ReceivedNoteRecord} {message : String} :
    mergeReceived existing candidate = .error message ↔
      (existing.value ≠ candidate.value ∧ message = receivedConflict "values" existing.key) ∨
      (existing.value = candidate.value ∧
        (∃ id id', existing.addressId = some id ∧ candidate.addressId = some id' ∧ id ≠ id') ∧
        message = receivedConflict "addresses" existing.key) := by
  unfold mergeReceived
  by_cases hvalue : existing.value = candidate.value
  · rw [if_neg (not_not.mpr hvalue)]
    cases hid : existing.addressId with
    | none => simp [hvalue]
    | some id =>
      cases hid' : candidate.addressId with
      | none => simp [hvalue]
      | some id' =>
        by_cases hsame : id = id'
        · simp [hvalue, hsame]
        · simp only [Option.isSome_some, Bool.and_self, Bool.true_and, bne_iff_ne, ne_eq,
            Option.some.injEq, hsame, not_false_eq_true, if_true, Except.error.injEq, hvalue,
            not_true_eq_false, false_and, false_or, true_and, exists_and_left, exists_eq_left']
          exact eq_comm
  · rw [if_pos hvalue]
    simp only [Except.error.injEq, ne_eq, hvalue, not_false_eq_true, true_and, false_and, or_false]
    exact eq_comm

/-- A refusal comes from two rows of the output that disagree. -/
theorem conflict_of_foldGroup {group : List ReceivedNoteRecord} {message : String}
    {key : ReceivedKey} (hkey : ∀ a ∈ group, a.key = key)
    (h : KeyedFold.foldGroup id mergeReceived group = .error message) :
    ∃ a ∈ group, ∃ b ∈ group, a.Conflict b message := by
  induction group using List.reverseRecOn with
  | nil => cases h
  | append_singleton group candidate ih =>
    have hinit : ∀ a ∈ group, a.key = key := fun a ha => hkey a (List.mem_append_left _ ha)
    rw [KeyedFold.foldGroup_concat] at h
    cases hgroup : KeyedFold.foldGroup id mergeReceived group with
    | error message' =>
      rw [hgroup] at h
      obtain rfl : message' = message := Except.error.inj h
      obtain ⟨a, ha, b, hb, hconflict⟩ := ih hinit hgroup
      exact ⟨a, List.mem_append_left _ ha, b, List.mem_append_left _ hb, hconflict⟩
    | ok value =>
      rw [hgroup] at h
      cases value with
      | none => cases h
      | some existing =>
        have hsummary := summary_of_foldGroup hinit hgroup
        have hmerge : mergeReceived existing candidate = .error message := by
          change (mergeReceived existing candidate).map some = .error message at h
          cases hmerged : mergeReceived existing candidate with
          | error message' =>
            rw [hmerged] at h
            rw [Except.error.inj h]
          | ok merged =>
            rw [hmerged] at h
            cases h
        -- the row that disagrees is the one the kept address comes from
        obtain ⟨a, ha, hsource⟩ := hsummary.addressSource
        refine ⟨a, List.mem_append_left _ ha, candidate, by simp,
          (hinit a ha).trans (hkey candidate (by simp)).symm, ?_⟩
        rw [hsummary.key a ha, hsummary.value a ha, hsource]
        exact mergeReceived_eq_error.mp hmerge

/-- A refusal of the listing: two counted rows filed together that disagree. -/
def ReceivedConflict (accountId : Int) (rows : List NoteRow) (transactions : List TransactionRow)
    (message : String) : Prop :=
  ∃ a ∈ receivedRows accountId rows, ∃ b ∈ receivedRows accountId rows,
    (receivedCandidate transactions a).Conflict (receivedCandidate transactions b) message

variable {accountId : Int}

theorem receivedRows_perm {rows rows' : List NoteRow} (h : rows'.Perm rows) :
    (receivedRows accountId rows').Perm (receivedRows accountId rows) :=
  (h.filter _).filter _

theorem ReceivedConflict.perm {rows rows' : List NoteRow} {message : String}
    (hconflict : ReceivedConflict accountId rows transactions message) (h : rows.Perm rows') :
    ReceivedConflict accountId rows' transactions message := by
  obtain ⟨a, ha, b, hb, hab⟩ := hconflict
  have hmem : (receivedRows accountId rows).Perm (receivedRows accountId rows') :=
    receivedRows_perm h
  exact ⟨a, hmem.mem_iff.mp ha, b, hmem.mem_iff.mp hb, hab⟩

theorem conflict_of_error {rows : List NoteRow} {message : String}
    (h : getCanonicalReceivedNotes accountId rows transactions = .error message) :
    ReceivedConflict accountId rows transactions message := by
  unfold getCanonicalReceivedNotes at h
  cases hfold : KeyedFold.fold ReceivedNoteRecord.key id mergeReceived
      ((receivedRows accountId rows).map (receivedCandidate transactions)) with
  | ok map =>
    rw [hfold] at h
    cases h
  | error message' =>
    rw [hfold] at h
    obtain rfl : message' = message := Except.error.inj h
    obtain ⟨key, hkey⟩ := KeyedFold.fold_eq_error hfold
    obtain ⟨a, ha, b, hb, hconflict⟩ := conflict_of_foldGroup
      (fun a ha => of_decide_eq_true (List.mem_filter.mp ha).2) hkey
    obtain ⟨row, hrow, rfl⟩ := List.mem_map.mp (List.mem_filter.mp ha).1
    obtain ⟨row', hrow', rfl⟩ := List.mem_map.mp (List.mem_filter.mp hb).1
    exact ⟨row, hrow, row', hrow', hconflict⟩

/-- Every refusal is the one of some order of the rows. -/
theorem ReceivedConflict.exists_order {rows : List NoteRow} {message : String}
    (h : ReceivedConflict accountId rows transactions message) :
    ∃ rows', rows'.Perm rows ∧
      getCanonicalReceivedNotes accountId rows' transactions = .error message := by
  obtain ⟨a, ha, b, hb, hkey, hdisagree⟩ := h
  have ha' := List.mem_filter.mp ha
  have hb' := List.mem_filter.mp hb
  have hrowA := List.mem_filter.mp ha'.1
  have hrowB := List.mem_filter.mp hb'.1
  have hne : b ≠ a := by
    rintro rfl
    rcases hdisagree with ⟨hvalue, -⟩ | ⟨-, ⟨id, id', hid, hid', hne⟩, -⟩
    · exact hvalue rfl
    · exact hne (Option.some.inj (hid.symm.trans hid'))
  refine ⟨a :: b :: (rows.erase a).erase b, ?_, ?_⟩
  · have hmem : b ∈ rows.erase a := (List.mem_erase_of_ne hne).mpr hrowB.1
    exact (((List.perm_cons_erase hmem).cons a).symm).trans (List.perm_cons_erase hrowA.1).symm
  · have hrows : receivedRows accountId (a :: b :: (rows.erase a).erase b) =
        [a, b] ++ receivedRows accountId ((rows.erase a).erase b) := by
      unfold receivedRows
      simp only [List.filter_cons, hrowA.2, hrowB.2, ha'.2, hb'.2, if_true, List.cons_append,
        List.nil_append]
    have hpair : KeyedFold.fold ReceivedNoteRecord.key id mergeReceived
        ([a, b].map (receivedCandidate transactions)) = .error message := by
      have hmerge := mergeReceived_eq_error.mpr hdisagree
      show KeyedFold.fold ReceivedNoteRecord.key id mergeReceived
        ([receivedCandidate transactions a] ++ [receivedCandidate transactions b]) = _
      rw [KeyedFold.fold_concat]
      show KeyedFold.absorb _ _ _ (AList.insert (receivedCandidate transactions a).key
        (receivedCandidate transactions a) ∅) (receivedCandidate transactions b) = _
      unfold KeyedFold.absorb
      rw [← hkey, AList.lookup_insert]
      show (mergeReceived _ _).map _ = _
      rw [hmerge]
      rfl
    unfold getCanonicalReceivedNotes
    rw [hrows, List.map_append, KeyedFold.fold_append_error hpair]
    rfl

end StashiWallet
