import StashiWallet.ReceivedNoteGroups

/-!
# Received outputs and the order of their rows

Everything in the record of an output but its note is the same in every order of the rows. A
stored note may be empty, and the first one stored stays, so the listing reads what it should
(`ReadsCanonically`) only where the rows of an output agree on their note, and only where the
transactions tell in which byte order an id is stored.
-/

namespace StashiWallet

variable {transactions : List TransactionRow} {accountId : Int}

/-! ## What is listed -/

theorem key_of_compareReceived {a b : ReceivedNoteRecord} (h : compareReceived a b = .eq) :
    a.key = b.key := by
  unfold compareReceived at h
  simp only [compareLex, Ordering.then_eq_eq] at h
  obtain ⟨-, -, -, htxid, hpool, hindex⟩ := h
  have hpool' : a.noteType = b.noteType := by
    have hlisted := KeyedFold.eq_of_ascending hpool
    cases ha : a.noteType <;> cases hb : b.noteType <;> simp_all [NoteType.listed]
  unfold ReceivedNoteRecord.key
  rw [KeyedFold.eq_of_descending htxid, hpool', KeyedFold.eq_of_ascending hindex]

/-- The rows filed under a key. -/
def filedUnder (transactions : List TransactionRow) (accountId : Int) (rows : List NoteRow)
    (key : ReceivedKey) : List ReceivedNoteRecord :=
  ((receivedRows accountId rows).map (receivedCandidate transactions)).filter
    (fun record => decide (record.key = key))

variable {rows : List NoteRow} {record : ReceivedNoteRecord}

theorem mem_filedUnder {key : ReceivedKey} :
    record ∈ filedUnder transactions accountId rows key ↔
      ∃ row ∈ receivedRows accountId rows, receivedCandidate transactions row = record ∧
        record.key = key := by
  unfold filedUnder
  rw [List.mem_filter, List.mem_map, decide_eq_true_iff]
  constructor
  · rintro ⟨⟨row, hrow, rfl⟩, hkey⟩
    exact ⟨row, hrow, rfl, hkey⟩
  · rintro ⟨row, hrow, rfl, hkey⟩
    exact ⟨⟨row, hrow, rfl⟩, hkey⟩

/-- A counted row is filed under its key. -/
theorem candidate_mem_filedUnder {rows : List NoteRow} {row : NoteRow} {key : ReceivedKey}
    (hrow : row ∈ receivedRows accountId rows)
    (hkey : (receivedCandidate transactions row).key = key) :
    receivedCandidate transactions row ∈ filedUnder transactions accountId rows key :=
  mem_filedUnder.mpr ⟨row, hrow, rfl, hkey⟩

/-- What a map of records holds once the rows are folded. -/
structure Filed (transactions : List TransactionRow) (accountId : Int) (rows : List NoteRow)
    (map : AList (fun _ : ReceivedKey => ReceivedNoteRecord)) : Prop where
  key : ∀ key record, map.lookup key = some record → record.key = key
  summary : ∀ key record, map.lookup key = some record →
    Summary (filedUnder transactions accountId rows key) record
  covers : ∀ row ∈ receivedRows accountId rows, ∃ record,
    map.lookup (receivedCandidate transactions row).key = some record

theorem filed_of_fold {map : AList (fun _ : ReceivedKey => ReceivedNoteRecord)}
    (h : KeyedFold.fold ReceivedNoteRecord.key id mergeReceived
      ((receivedRows accountId rows).map (receivedCandidate transactions)) = .ok map) :
    Filed transactions accountId rows map := by
  have hsummary : ∀ key record, map.lookup key = some record →
      Summary (filedUnder transactions accountId rows key) record := by
    intro key record hrecord
    have hgroup := KeyedFold.lookup_fold h key
    rw [hrecord] at hgroup
    exact summary_of_foldGroup (fun a ha => of_decide_eq_true (List.mem_filter.mp ha).2) hgroup
  constructor
  case summary => exact hsummary
  case key =>
    intro key record hrecord
    obtain ⟨a, ha, -⟩ := (hsummary key record hrecord).addressSource
    obtain ⟨-, -, -, hkey⟩ := mem_filedUnder.mp ha
    exact ((hsummary key record hrecord).key a ha).symm.trans hkey
  case covers =>
    intro row hrow
    cases hlookup : map.lookup (receivedCandidate transactions row).key with
    | some record => exact ⟨record, rfl⟩
    | none =>
      have hgroup := KeyedFold.lookup_fold h (receivedCandidate transactions row).key
      rw [hlookup] at hgroup
      have hnil := KeyedFold.foldGroup_eq_none hgroup
      have hmem := @candidate_mem_filedUnder transactions _ _ _ _ hrow rfl
      unfold filedUnder at hmem
      rw [hnil] at hmem
      cases hmem

variable {records : List ReceivedNoteRecord}

/-- A listing that succeeds lists a map of the rows. -/
theorem listing_eq_ok (h : getCanonicalReceivedNotes accountId rows transactions = .ok records) :
    ∃ map, KeyedFold.fold ReceivedNoteRecord.key id mergeReceived
        ((receivedRows accountId rows).map (receivedCandidate transactions)) = .ok map ∧
      records = KeyedFold.listBy compareReceived (KeyedFold.values map) := by
  obtain ⟨map, hmap, hrecords⟩ := map_eq_ok h
  exact ⟨map, hmap, hrecords.symm⟩

/-- Maps that hold the same are listed the same. -/
theorem listing_congr {a b : AList (fun _ : ReceivedKey => ReceivedNoteRecord)}
    (hkey : ∀ key record, b.lookup key = some record → record.key = key)
    (h : ∀ key, a.lookup key = b.lookup key) :
    KeyedFold.listBy compareReceived (KeyedFold.values a) =
      KeyedFold.listBy compareReceived (KeyedFold.values b) := by
  refine KeyedFold.listBy_perm (KeyedFold.values_perm h) ?_
  intro x hx y hy heq
  obtain ⟨kx, hkx⟩ := KeyedFold.mem_values.mp hx
  obtain ⟨ky, hky⟩ := KeyedFold.mem_values.mp hy
  rw [h] at hkx
  have hsame := key_of_compareReceived heq
  rw [hkey kx x hkx, hkey ky y hky] at hsame
  rw [hsame, hky] at hkx
  exact (Option.some.inj hkx).symm

/-- Nothing is refused where no two rows disagree. -/
theorem listing_ok {rows : List NoteRow}
    (h : ∀ message, ¬ ReceivedConflict accountId rows transactions message) :
    ∃ records, getCanonicalReceivedNotes accountId rows transactions = .ok records := by
  cases hread : getCanonicalReceivedNotes accountId rows transactions with
  | ok records => exact ⟨records, rfl⟩
  | error message => exact absurd (conflict_of_error hread) (h message)

/-- Where something is listed no two rows disagree. -/
theorem no_conflict_of_ok (h : getCanonicalReceivedNotes accountId rows transactions = .ok records)
    (message : String) : ¬ ReceivedConflict accountId rows transactions message := by
  rintro ⟨a, ha, b, hb, hkey, hdisagree⟩
  obtain ⟨map, hmap, -⟩ := listing_eq_ok h
  have hfiled := filed_of_fold hmap
  obtain ⟨record, hrecord⟩ := hfiled.covers a ha
  have hsummary := hfiled.summary _ record hrecord
  have hmemA := @candidate_mem_filedUnder transactions _ _ _ _ ha rfl
  have hmemB := candidate_mem_filedUnder hb hkey.symm
  rcases hdisagree with ⟨hvalue, -⟩ | ⟨-, ⟨id, id', hid, hid', hne⟩, -⟩
  · exact hvalue ((hsummary.value _ hmemA).trans (hsummary.value _ hmemB).symm)
  · exact hne (Option.some.inj ((hsummary.addressId _ hmemA id hid).symm.trans
      (hsummary.addressId _ hmemB id' hid')))

/-- A listed record is held under its key, and what is held is listed. -/
theorem mem_listing {map : AList (fun _ : ReceivedKey => ReceivedNoteRecord)}
    (hfiled : Filed transactions accountId rows map) :
    record ∈ KeyedFold.listBy compareReceived (KeyedFold.values map) ↔
      map.lookup record.key = some record := by
  rw [KeyedFold.mem_listBy, KeyedFold.mem_values]
  constructor
  · rintro ⟨key, hkey⟩
    rw [hfiled.key key record hkey]
    exact hkey
  · intro h
    exact ⟨record.key, h⟩

/-! ## Agreement -/

/-- What the first value found is does not depend on the order where all values agree. -/
theorem findSome?_eq_of_agree {α β : Type} {f : α → Option β} {a b : List α}
    (hmem : ∀ x, x ∈ a ↔ x ∈ b)
    (hagree : ∀ x ∈ a, ∀ y ∈ a, ∀ v w, f x = some v → f y = some w → v = w) :
    a.findSome? f = b.findSome? f := by
  cases ha : a.findSome? f with
  | none =>
    rw [List.findSome?_eq_none_iff] at ha
    exact (List.findSome?_eq_none_iff.mpr fun x hx => ha x ((hmem x).mpr hx)).symm
  | some v =>
    obtain ⟨x, hx, hv⟩ := List.exists_of_findSome?_eq_some ha
    cases hb : b.findSome? f with
    | none =>
      rw [List.findSome?_eq_none_iff] at hb
      rw [hb x ((hmem x).mp hx)] at hv
      cases hv
    | some w =>
      obtain ⟨y, hy, hw⟩ := List.exists_of_findSome?_eq_some hb
      rw [hagree x hx y ((hmem y).mpr hy) v w hv hw]

/-- Two summaries of the same rows, in whatever order, are one record where the rows agree on
their times and their notes. -/
theorem Summary.eq {a b : List ReceivedNoteRecord} {record record' : ReceivedNoteRecord}
    (h : Summary a record) (h' : Summary b record') (hmem : ∀ x, x ∈ a ↔ x ∈ b)
    (htime : ∀ x ∈ a, ∀ y ∈ a, ∀ t t', x.timestamp = some t → y.timestamp = some t' → t = t')
    (hnote : ∀ x ∈ a, ∀ y ∈ a, ∀ n n', x.note = some n → y.note = some n' → n = n') :
    record = record' := by
  obtain ⟨source, hsource, haddress⟩ := h.addressSource
  obtain ⟨source', hsource', haddress'⟩ := h'.addressSource
  have hkey : record.key = record'.key :=
    (h.key source hsource).symm.trans (h'.key source ((hmem source).mp hsource))
  have hvalue : record.value = record'.value :=
    (h.value source hsource).symm.trans (h'.value source ((hmem source).mp hsource))
  have hheight : record.height = record'.height := by
    obtain ⟨hle, x, hx, hxeq⟩ := h.height
    obtain ⟨hle', y, hy, hyeq⟩ := h'.height
    have hxy := hle' x ((hmem x).mp hx)
    have hyx := hle y ((hmem y).mpr hy)
    omega
  have htimestamp : record.timestamp = record'.timestamp := by
    rw [h.timestamp, h'.timestamp]
    exact findSome?_eq_of_agree hmem htime
  have hnotes : record.note = record'.note := by
    rw [h.note, h'.note]
    exact findSome?_eq_of_agree hmem hnote
  have haddressId : record.addressId = record'.addressId := by
    cases hid : record.addressId with
    | some id =>
      rw [hid] at haddress
      exact (h'.addressId source ((hmem source).mp hsource) id haddress).symm
    | none =>
      cases hid' : record'.addressId with
      | none => rfl
      | some id =>
        rw [hid'] at haddress'
        rw [h.addressId source' ((hmem source').mpr hsource') id haddress'] at hid
        cases hid
  cases record
  cases record'
  simp only [ReceivedNoteRecord.key, Prod.mk.injEq] at hkey
  simp_all

/-! ## Outputs -/

/-- Rows of one output, in whichever byte order their ids are stored. -/
def NoteRow.SameOutput (a b : NoteRow) : Prop :=
  (a.txid = b.txid ∨ a.txid = b.txid.reverse) ∧ a.noteType = b.noteType ∧
    a.outputIndex = b.outputIndex

/-- A record of the output a row stands for. -/
def ReceivedNoteRecord.isOf (row : NoteRow) (record : ReceivedNoteRecord) : Bool :=
  (record.txid == hexEncode row.txid || record.txid == hexEncode row.txid.reverse) &&
    decide (record.noteType = row.noteType) && record.outputIndex == row.outputIndex

theorem displayBytes_eq_or (transactions : List TransactionRow) (txid : Bytes) :
    displayBytes transactions txid = txid ∨ displayBytes transactions txid = txid.reverse := by
  unfold displayBytes
  cases metadataUsesRaw transactions txid <;> simp

theorem receivedCandidate_key_eq_iff {a b : NoteRow} :
    (receivedCandidate transactions a).key = (receivedCandidate transactions b).key ↔
      displayBytes transactions a.txid = displayBytes transactions b.txid ∧
        a.noteType = b.noteType ∧ a.outputIndex = b.outputIndex := by
  rw [receivedCandidate_key, receivedCandidate_key]
  simp [hexEncode_injective.eq_iff]

/-- What is filed together is of one output. -/
theorem sameOutput_of_key {a b : NoteRow}
    (h : (receivedCandidate transactions a).key = (receivedCandidate transactions b).key) :
    a.SameOutput b := by
  obtain ⟨hdisplay, htype, hindex⟩ := receivedCandidate_key_eq_iff.mp h
  refine ⟨?_, htype, hindex⟩
  rcases displayBytes_eq_or transactions a.txid with ha | ha <;>
    rcases displayBytes_eq_or transactions b.txid with hb | hb <;> rw [ha, hb] at hdisplay
  · exact Or.inl hdisplay
  · exact Or.inr hdisplay
  · exact Or.inr (List.reverse_eq_iff.mp hdisplay)
  · exact Or.inl (List.reverse_injective hdisplay)

/-- Rows of one output are filed together where the byte order is told. -/
theorem key_of_sameOutput {a b : NoteRow} (htold : ByteOrderTold transactions b.txid)
    (h : a.SameOutput b) :
    (receivedCandidate transactions a).key = (receivedCandidate transactions b).key := by
  obtain ⟨htxid, htype, hindex⟩ := h
  refine receivedCandidate_key_eq_iff.mpr ⟨?_, htype, hindex⟩
  rcases htxid with htxid | htxid
  · rw [htxid]
  · rw [htxid]
    exact byteOrderTold_iff.mp htold

/-- A record filed under a row's key is of that row's output. -/
theorem isOf_of_key {row : NoteRow} (h : record.key = (receivedCandidate transactions row).key) :
    record.isOf row = true := by
  rw [receivedCandidate_key] at h
  simp only [ReceivedNoteRecord.key, Prod.mk.injEq] at h
  obtain ⟨htxid, htype, hindex⟩ := h
  unfold ReceivedNoteRecord.isOf
  rw [htxid, htype, hindex]
  rcases displayBytes_eq_or transactions row.txid with hd | hd <;> simp [hd]

/-- A record filed under one row's key and of another row's output is of both. -/
theorem sameOutput_of_isOf {source row : NoteRow}
    (hkey : record.key = (receivedCandidate transactions source).key) (h : record.isOf row = true) :
    source.SameOutput row := by
  rw [receivedCandidate_key] at hkey
  simp only [ReceivedNoteRecord.key, Prod.mk.injEq] at hkey
  obtain ⟨htxid, htype, hindex⟩ := hkey
  unfold ReceivedNoteRecord.isOf at h
  simp only [Bool.and_eq_true, Bool.or_eq_true, beq_iff_eq, decide_eq_true_eq, htxid,
    hexEncode_injective.eq_iff] at h
  obtain ⟨⟨hsame, htype'⟩, hindex'⟩ := h
  refine ⟨?_, htype.symm.trans htype', hindex.symm.trans hindex'⟩
  rcases displayBytes_eq_or transactions source.txid with hd | hd <;> rw [hd] at hsame
  · exact hsame
  · rcases hsame with hsame | hsame
    · exact Or.inr (List.reverse_eq_iff.mp hsame)
    · exact Or.inl (List.reverse_injective hsame)

/-! ## The reading -/

/-- A row of the same output that says no more than another. -/
structure NoteRow.Poorer (extra row : NoteRow) : Prop where
  accountId : extra.accountId = row.accountId
  output : extra.SameOutput row
  value : extra.value = row.value
  height : extra.height ≤ row.height
  addressId : extra.addressId = none ∨ extra.addressId = row.addressId
  note : extra.note = none ∨ extra.note = row.note ∨ (extra.note = some [] ∧ row.note.isSome)

/-- What the listing owes its rows: the order they are read in does not matter, every output has
one record, which carries the note bytes and the address any of its rows carries, and a further
row that says no more than another changes nothing. -/
structure ReadsCanonically (accountId : Int) (rows : List NoteRow)
    (transactions : List TransactionRow) : Prop where
  order : ∀ rows', rows'.Perm rows →
    getCanonicalReceivedNotes accountId rows' transactions =
      getCanonicalReceivedNotes accountId rows transactions
  one : ∀ records, getCanonicalReceivedNotes accountId rows transactions = .ok records →
    ∀ row ∈ receivedRows accountId rows, ∃ record,
      records.filter (fun record => record.isOf row) = [record]
  source : ∀ records, getCanonicalReceivedNotes accountId rows transactions = .ok records →
    ∀ record ∈ records, ∃ row ∈ receivedRows accountId rows, record.isOf row = true
  carriesNote : ∀ records, getCanonicalReceivedNotes accountId rows transactions = .ok records →
    ∀ row ∈ receivedRows accountId rows, ∀ record ∈ records, record.isOf row = true →
      blobMissing row.note = false → blobMissing record.note = false
  carriesAddress : ∀ records,
    getCanonicalReceivedNotes accountId rows transactions = .ok records →
    ∀ row ∈ receivedRows accountId rows, ∀ record ∈ records, record.isOf row = true →
      ∀ id, row.addressId = some id → record.addressId = some id
  stable : ∀ row ∈ receivedRows accountId rows, ∀ extra : NoteRow, extra.Poorer row →
    getCanonicalReceivedNotes accountId (rows ++ [extra]) transactions =
      getCanonicalReceivedNotes accountId rows transactions

/-- The byte order of every counted id is told, and the rows of an output store one note. -/
structure ReceivedAgreement (accountId : Int) (rows : List NoteRow)
    (transactions : List TransactionRow) : Prop where
  told : ∀ row ∈ receivedRows accountId rows, ByteOrderTold transactions row.txid
  note : ∀ a ∈ receivedRows accountId rows, ∀ b ∈ receivedRows accountId rows,
    a.SameOutput b → ∀ n n', a.note = some n → b.note = some n' → n = n'

/-- With the notes of every output agreed on, a map of the rows does not depend on their order. -/
theorem Filed.lookup_eq {rows rows' : List NoteRow}
    {map map' : AList (fun _ : ReceivedKey => ReceivedNoteRecord)}
    (hfiled : Filed transactions accountId rows map)
    (hfiled' : Filed transactions accountId rows' map') (hperm : rows'.Perm rows)
    (hagree : ReceivedAgreement accountId rows transactions) (key : ReceivedKey) :
    map'.lookup key = map.lookup key := by
  have hrows : ∀ row, row ∈ receivedRows accountId rows' ↔ row ∈ receivedRows accountId rows :=
    fun row => (receivedRows_perm hperm).mem_iff
  have hmem : ∀ record, record ∈ filedUnder transactions accountId rows key ↔
      record ∈ filedUnder transactions accountId rows' key := by
    intro record
    rw [mem_filedUnder, mem_filedUnder]
    simp only [hrows]
  cases hlookup : map.lookup key with
  | none =>
    cases hlookup' : map'.lookup key with
    | none => rfl
    | some record =>
      obtain ⟨a, ha, -⟩ := (hfiled'.summary key record hlookup').addressSource
      obtain ⟨row, hrow, rfl, hkey⟩ := mem_filedUnder.mp ha
      obtain ⟨other, hother⟩ := hfiled.covers row ((hrows row).mp hrow)
      rw [hkey, hlookup] at hother
      cases hother
  | some record =>
    have hsummary := hfiled.summary key record hlookup
    obtain ⟨a, ha, -⟩ := hsummary.addressSource
    obtain ⟨row, hrow, rfl, hkey⟩ := mem_filedUnder.mp ha
    obtain ⟨record', hrecord'⟩ := hfiled'.covers row ((hrows row).mpr hrow)
    rw [hkey] at hrecord'
    rw [hrecord', hsummary.eq (hfiled'.summary key record' hrecord') hmem]
    · intro x hx y hy t t' ht ht'
      obtain ⟨rowX, -, rfl, hkeyX⟩ := mem_filedUnder.mp hx
      obtain ⟨rowY, -, rfl, hkeyY⟩ := mem_filedUnder.mp hy
      have hdisplay := (receivedCandidate_key_eq_iff.mp (hkeyX.trans hkeyY.symm)).1
      rw [receivedCandidate_timestamp] at ht ht'
      rw [hdisplay, ht'] at ht
      exact (Option.some.inj ht).symm
    · intro x hx y hy n n' hn hn'
      obtain ⟨rowX, hrowX, rfl, hkeyX⟩ := mem_filedUnder.mp hx
      obtain ⟨rowY, hrowY, rfl, hkeyY⟩ := mem_filedUnder.mp hy
      exact hagree.note rowX hrowX rowY hrowY (sameOutput_of_key (hkeyX.trans hkeyY.symm)) n n'
        hn hn'

/-- A record takes nothing from a row that says no more than one it already holds. -/
theorem Summary.absorbs {group : List ReceivedNoteRecord} {record poor a : ReceivedNoteRecord}
    (h : Summary group record) (ha : a ∈ group) (hvalue : poor.value = a.value)
    (hheight : poor.height ≤ a.height) (htime : poor.timestamp = a.timestamp)
    (haddress : poor.addressId = none ∨ poor.addressId = a.addressId)
    (hnote : a.note = none → poor.note = none) : mergeReceived record poor = .ok record := by
  have hrefused : (record.addressId.isSome && poor.addressId.isSome &&
      record.addressId != poor.addressId) = false := by
    rcases haddress with hnone | hsame
    · simp [hnone]
    · cases hid : a.addressId with
      | none => simp [hsame, hid]
      | some id => simp [hsame, hid, h.addressId a ha id hid]
  have hheight' : max record.height poor.height = record.height :=
    max_eq_left (hheight.trans (h.height.1 a ha))
  have htime' : record.timestamp.or poor.timestamp = record.timestamp := by
    cases hrecord : record.timestamp with
    | some t => rfl
    | none =>
      rw [h.timestamp, List.findSome?_eq_none_iff] at hrecord
      rw [Option.none_or, htime, hrecord a ha]
  have haddress' : record.addressId.or poor.addressId = record.addressId := by
    rcases haddress with hnone | hsame
    · rw [hnone, Option.or_none]
    · cases hid : a.addressId with
      | none => rw [hsame, hid, Option.or_none]
      | some id => rw [h.addressId a ha id hid, Option.some_or]
  have hnote' : record.note.or poor.note = record.note := by
    cases hrecord : record.note with
    | some n => rfl
    | none =>
      rw [h.note, List.findSome?_eq_none_iff] at hrecord
      rw [Option.none_or, hnote (hrecord a ha)]
  unfold mergeReceived
  rw [if_neg (not_not.mpr ((h.value a ha).symm.trans hvalue.symm)), hrefused, hheight', htime',
    haddress', hnote']
  rfl

theorem receivedRows_append_poorer {row extra : NoteRow} (hrow : row ∈ receivedRows accountId rows)
    (hpoor : extra.Poorer row) :
    receivedRows accountId (rows ++ [extra]) = receivedRows accountId rows ++ [extra] := by
  obtain ⟨haccount, hcounted⟩ := List.mem_filter.mp hrow
  have hempty : extra.txid.isEmpty = row.txid.isEmpty := by
    rcases hpoor.output.1 with htxid | htxid <;> simp [htxid]
  unfold receivedRows
  rw [List.filter_append, List.filter_append, List.filter_cons, hpoor.accountId,
    (List.mem_filter.mp haccount).2, if_pos rfl, List.filter_cons, hempty, hpoor.value, hcounted]
  rfl

variable (h : getCanonicalReceivedNotes accountId rows transactions = .ok records)

include h

theorem filed_of_listing :
    ∃ map, KeyedFold.fold ReceivedNoteRecord.key id mergeReceived
        ((receivedRows accountId rows).map (receivedCandidate transactions)) = .ok map ∧
      Filed transactions accountId rows map ∧
      ∀ record, record ∈ records ↔ map.lookup record.key = some record := by
  obtain ⟨map, hmap, rfl⟩ := listing_eq_ok h
  exact ⟨map, hmap, filed_of_fold hmap, fun record => mem_listing (filed_of_fold hmap)⟩

/-- No two listed records have one key. -/
theorem listing_distinct : records.Pairwise (fun a b => a.key ≠ b.key) := by
  obtain ⟨map, hmap, rfl⟩ := listing_eq_ok h
  exact (KeyedFold.values_pairwise (filed_of_fold hmap).key).perm
    (KeyedFold.listBy_perm_self _).symm Ne.symm

/-- A further poorer row changes nothing where the byte orders are told. -/
theorem stable_of_told {row extra : NoteRow} (hrow : row ∈ receivedRows accountId rows)
    (htold : ByteOrderTold transactions row.txid) (hpoor : extra.Poorer row) :
    getCanonicalReceivedNotes accountId (rows ++ [extra]) transactions =
      getCanonicalReceivedNotes accountId rows transactions := by
  obtain ⟨map, hmap, hfiled, -⟩ := filed_of_listing h
  have hkey := key_of_sameOutput htold hpoor.output
  have hdisplay := (receivedCandidate_key_eq_iff.mp hkey).1
  obtain ⟨record, hrecord⟩ := hfiled.covers row hrow
  have hmerge : mergeReceived record (receivedCandidate transactions extra) = .ok record := by
    refine (hfiled.summary _ record hrecord).absorbs (candidate_mem_filedUnder hrow rfl)
      hpoor.value ?_ ?_ hpoor.addressId ?_
    · rw [receivedCandidate_height, receivedCandidate_height, hdisplay]
      exact max_le_max hpoor.height le_rfl
    · rw [receivedCandidate_timestamp, receivedCandidate_timestamp, hdisplay]
    · intro hnone
      change row.note = none at hnone
      show extra.note = none
      rcases hpoor.note with hnote | hnote | ⟨-, hnote⟩
      · exact hnote
      · exact hnote.trans hnone
      · rw [hnone] at hnote
        cases hnote
  have habsorb : KeyedFold.absorb ReceivedNoteRecord.key id mergeReceived map
      (receivedCandidate transactions extra) =
        .ok (map.insert (receivedCandidate transactions row).key record) := by
    unfold KeyedFold.absorb
    rw [hkey, hrecord]
    show (mergeReceived _ _).map _ = _
    rw [hmerge]
    rfl
  unfold getCanonicalReceivedNotes
  rw [receivedRows_append_poorer hrow hpoor, List.map_append, List.map_singleton,
    KeyedFold.fold_concat, hmap]
  show (KeyedFold.absorb _ _ _ _ _).map _ = _
  rw [habsorb]
  refine congrArg Except.ok (listing_congr hfiled.key fun key => ?_)
  by_cases hsame : key = (receivedCandidate transactions row).key
  · rw [hsame, AList.lookup_insert, hrecord]
  · rw [AList.lookup_insert_ne hsame]

omit h

/-- Rows that agree are read canonically. -/
theorem readsCanonically_of_agreement
    (hno : ∀ message, ¬ ReceivedConflict accountId rows transactions message)
    (hagree : ReceivedAgreement accountId rows transactions) :
    ReadsCanonically accountId rows transactions := by
  obtain ⟨listed, hlisted⟩ := listing_ok hno
  obtain ⟨map, hmap, hfiled, hmem⟩ := filed_of_listing hlisted
  -- a listed record is filed under the key of every row of its output
  have hkey : ∀ record ∈ listed, ∀ row ∈ receivedRows accountId rows, record.isOf row = true →
      record.key = (receivedCandidate transactions row).key := by
    intro record hrecord row hrow hof
    obtain ⟨a, ha, -⟩ := (hfiled.summary _ _ ((hmem record).mp hrecord)).addressSource
    obtain ⟨source, -, rfl, hsource⟩ := mem_filedUnder.mp ha
    rw [← hsource]
    exact key_of_sameOutput (hagree.told row hrow) (sameOutput_of_isOf hsource.symm hof)
  have hsummary : ∀ record ∈ listed, ∀ row ∈ receivedRows accountId rows,
      record.isOf row = true →
      Summary (filedUnder transactions accountId rows record.key) record ∧
        receivedCandidate transactions row ∈
          filedUnder transactions accountId rows record.key := fun record hrecord row hrow hof =>
    ⟨hfiled.summary _ _ ((hmem record).mp hrecord),
      candidate_mem_filedUnder hrow (hkey record hrecord row hrow hof).symm⟩
  constructor
  case order =>
    intro rows' hperm
    obtain ⟨listed', hlisted'⟩ := @listing_ok transactions accountId rows'
      fun message hconflict => hno message (hconflict.perm hperm)
    obtain ⟨map', hmap', rfl⟩ := listing_eq_ok hlisted'
    obtain ⟨map'', hmap'', rfl⟩ := listing_eq_ok hlisted
    obtain rfl : map = map'' := Except.ok.inj (hmap.symm.trans hmap'')
    rw [hlisted, hlisted']
    exact congrArg Except.ok (listing_congr hfiled.key
      fun key => hfiled.lookup_eq (filed_of_fold hmap') hperm hagree key)
  case one =>
    intro records hrecords row hrow
    obtain rfl : listed = records := Except.ok.inj (hlisted.symm.trans hrecords)
    obtain ⟨record, hrecord⟩ := hfiled.covers row hrow
    have hrecordKey := hfiled.key _ record hrecord
    have hmember : record ∈ listed := (hmem record).mpr (by rw [hrecordKey]; exact hrecord)
    refine ⟨record, ?_⟩
    rw [← KeyedFold.filter_key_eq_singleton (listing_distinct hlisted) hmember]
    refine List.filter_congr fun other hother => ?_
    rw [Bool.eq_iff_iff, decide_eq_true_iff, hrecordKey]
    exact ⟨hkey other hother row hrow, isOf_of_key⟩
  case source =>
    intro records hrecords record hrecord
    obtain rfl : listed = records := Except.ok.inj (hlisted.symm.trans hrecords)
    obtain ⟨a, ha, -⟩ := (hfiled.summary _ _ ((hmem record).mp hrecord)).addressSource
    obtain ⟨row, hrow, rfl, hsource⟩ := mem_filedUnder.mp ha
    exact ⟨row, hrow, isOf_of_key hsource.symm⟩
  case carriesNote =>
    intro records hrecords row hrow record hrecord hof hnote
    obtain rfl : listed = records := Except.ok.inj (hlisted.symm.trans hrecords)
    obtain ⟨hsum, hfiledRow⟩ := hsummary record hrecord row hrow hof
    cases hstored : row.note with
    | none =>
      rw [hstored] at hnote
      cases hnote
    | some n =>
      cases hkept : record.note with
      | none =>
        rw [hsum.note, List.findSome?_eq_none_iff] at hkept
        have hnone := hkept _ hfiledRow
        change row.note = none at hnone
        rw [hstored] at hnone
        cases hnone
      | some n' =>
        rw [hsum.note] at hkept
        obtain ⟨b, hb, hn'⟩ := List.exists_of_findSome?_eq_some hkept
        obtain ⟨other, hother, rfl, hotherKey⟩ := mem_filedUnder.mp hb
        have hsame := sameOutput_of_key (hotherKey.trans (hkey record hrecord row hrow hof))
        rw [hagree.note other hother row hrow hsame n' n hn' hstored, ← hstored]
        exact hnote
  case carriesAddress =>
    intro records hrecords row hrow record hrecord hof id hid
    obtain rfl : listed = records := Except.ok.inj (hlisted.symm.trans hrecords)
    obtain ⟨hsum, hfiledRow⟩ := hsummary record hrecord row hrow hof
    exact hsum.addressId _ hfiledRow id hid
  case stable =>
    intro row hrow extra hpoor
    exact stable_of_told hlisted hrow (hagree.told row hrow) hpoor

/-- Rows that are refused for one reason only are refused for it in every order. -/
theorem readsCanonically_of_conflict {message : String}
    (hconflict : ReceivedConflict accountId rows transactions message)
    (honly : ∀ message', ReceivedConflict accountId rows transactions message' →
      message' = message) : ReadsCanonically accountId rows transactions := by
  have hrefused : ∀ rows', rows'.Perm rows →
      getCanonicalReceivedNotes accountId rows' transactions = .error message := by
    intro rows' hperm
    cases hread : getCanonicalReceivedNotes accountId rows' transactions with
    | ok records => exact absurd (hconflict.perm hperm.symm) (no_conflict_of_ok hread message)
    | error message' => rw [honly message' ((conflict_of_error hread).perm hperm)]
  have hself := hrefused rows (List.Perm.refl rows)
  constructor
  case order =>
    intro rows' hperm
    rw [hrefused rows' hperm, hself]
  case stable =>
    intro row hrow extra hpoor
    rw [hself]
    cases hfold : KeyedFold.fold ReceivedNoteRecord.key id mergeReceived
        ((receivedRows accountId rows).map (receivedCandidate transactions)) with
    | ok map =>
      unfold getCanonicalReceivedNotes at hself
      rw [hfold] at hself
      cases hself
    | error message' =>
      unfold getCanonicalReceivedNotes at hself ⊢
      rw [hfold] at hself
      rw [receivedRows_append_poorer hrow hpoor, List.map_append,
        KeyedFold.fold_append_error hfold]
      exact hself
  all_goals
    intro records hrecords
    rw [hself] at hrecords
    cases hrecords

/-- The note of the row that is read first is the one listed. -/
theorem first_note {row : NoteRow} (hrow : row ∈ receivedRows accountId (row :: rows))
    (h : getCanonicalReceivedNotes accountId (row :: rows) transactions = .ok records)
    {note : Bytes} (hnote : row.note = some note) (hrecord : record ∈ records)
    (hkey : record.key = (receivedCandidate transactions row).key) : record.note = some note := by
  obtain ⟨map, -, hfiled, hmem⟩ := filed_of_listing h
  have hsummary := hfiled.summary _ _ ((hmem record).mp hrecord)
  obtain ⟨haccount, hcounted⟩ := List.mem_filter.mp hrow
  have hfirst : filedUnder transactions accountId (row :: rows) record.key =
      receivedCandidate transactions row :: filedUnder transactions accountId rows record.key := by
    unfold filedUnder receivedRows
    rw [List.filter_cons, if_pos (List.mem_filter.mp haccount).2, List.filter_cons,
      if_pos hcounted, List.map_cons, List.filter_cons, if_pos (decide_eq_true hkey.symm)]
  have hstored : (receivedCandidate transactions row).note = some note := hnote
  rw [hsummary.note, hfirst, List.findSome?_cons, hstored]

/-- Only rows that agree are read canonically. -/
theorem ReadsCanonically.agreement (hreads : ReadsCanonically accountId rows transactions)
    (hno : ∀ message, ¬ ReceivedConflict accountId rows transactions message) :
    ReceivedAgreement accountId rows transactions := by
  obtain ⟨listed, hlisted⟩ := listing_ok hno
  have htold : ∀ row ∈ receivedRows accountId rows, ByteOrderTold transactions row.txid := by
    intro row hrow
    -- the same row stored in the other byte order
    have hpoor : ({ row with txid := row.txid.reverse } : NoteRow).Poorer row :=
      ⟨rfl, ⟨Or.inr rfl, rfl, rfl⟩, rfl, le_rfl, Or.inr rfl, Or.inr (Or.inl rfl)⟩
    have hsame := hreads.stable row hrow _ hpoor
    rw [hlisted] at hsame
    obtain ⟨map, -, hfiled, hmem⟩ := filed_of_listing hsame
    have hrows := receivedRows_append_poorer hrow hpoor
    obtain ⟨record, hrecord⟩ := hfiled.covers row (by rw [hrows]; simp [hrow])
    obtain ⟨turned, hturned⟩ := hfiled.covers { row with txid := row.txid.reverse }
      (by rw [hrows]; simp)
    have hrecordKey := hfiled.key _ _ hrecord
    have hturnedKey := hfiled.key _ _ hturned
    obtain ⟨only, honly⟩ := hreads.one listed hlisted row hrow
    have hrecordOnly : record ∈ [only] := by
      rw [← honly, List.mem_filter]
      exact ⟨(hmem record).mpr (by rw [hrecordKey]; exact hrecord), isOf_of_key hrecordKey⟩
    have hturnedOnly : turned ∈ [only] := by
      rw [← honly, List.mem_filter]
      refine ⟨(hmem turned).mpr (by rw [hturnedKey]; exact hturned), ?_⟩
      have hof := isOf_of_key hturnedKey
      unfold ReceivedNoteRecord.isOf at hof ⊢
      rw [List.reverse_reverse] at hof
      rwa [Bool.or_comm (turned.txid == hexEncode row.txid)]
    rw [List.mem_singleton] at hrecordOnly hturnedOnly
    rw [hrecordOnly] at hrecordKey
    rw [hturnedOnly] at hturnedKey
    exact byteOrderTold_iff.mpr
      (receivedCandidate_key_eq_iff.mp (hturnedKey.symm.trans hrecordKey)).1
  refine ⟨htold, ?_⟩
  intro a ha b hb hsame n n' hn hn'
  have hmove : ∀ row ∈ receivedRows accountId rows, (row :: rows.erase row).Perm rows :=
    fun row hrow => (List.perm_cons_erase
      (List.mem_filter.mp (List.mem_filter.mp hrow).1).1).symm
  have hkeys := key_of_sameOutput (htold b hb) hsame
  obtain ⟨map, -, hfiled, hmem⟩ := filed_of_listing hlisted
  obtain ⟨record, hrecord⟩ := hfiled.covers a ha
  have hrecordKey := hfiled.key _ _ hrecord
  have hlistedRecord : record ∈ listed := (hmem record).mpr (by rw [hrecordKey]; exact hrecord)
  have hnoteOf : ∀ row ∈ receivedRows accountId rows,
      record.key = (receivedCandidate transactions row).key → ∀ note, row.note = some note →
      record.note = some note := by
    intro row hrow hkey note hnote
    refine first_note ?_ ((hreads.order _ (hmove row hrow)).trans hlisted) hnote hlistedRecord hkey
    exact (receivedRows_perm (hmove row hrow)).mem_iff.mpr hrow
  exact Option.some.inj ((hnoteOf a ha hrecordKey n hn).symm.trans
    (hnoteOf b hb (hrecordKey.trans hkeys) n' hn'))

/-- The listing reads its rows canonically exactly when they are refused for one reason at most
and, where they are not refused, the byte order of every id is told and no two rows of an output
store different notes. -/
theorem readsCanonically_iff (accountId : Int) (rows : List NoteRow)
    (transactions : List TransactionRow) :
    ReadsCanonically accountId rows transactions ↔
      (∀ message message', ReceivedConflict accountId rows transactions message →
        ReceivedConflict accountId rows transactions message' → message = message') ∧
      ((∀ message, ¬ ReceivedConflict accountId rows transactions message) →
        ReceivedAgreement accountId rows transactions) := by
  constructor
  · intro hreads
    refine ⟨?_, hreads.agreement⟩
    intro message message' hconflict hconflict'
    obtain ⟨rows₁, hperm₁, hread₁⟩ := hconflict.exists_order
    obtain ⟨rows₂, hperm₂, hread₂⟩ := hconflict'.exists_order
    have h₁ := (hreads.order rows₁ hperm₁).symm.trans hread₁
    have h₂ := (hreads.order rows₂ hperm₂).symm.trans hread₂
    exact Except.error.inj (h₁.symm.trans h₂)
  · rintro ⟨honly, hagree⟩
    by_cases hconflict : ∃ message, ReceivedConflict accountId rows transactions message
    · obtain ⟨message, hmessage⟩ := hconflict
      exact readsCanonically_of_conflict hmessage fun message' h => honly message' message h hmessage
    · have hno := not_exists.mp hconflict
      exact readsCanonically_of_agreement hno (hagree hno)

/-- An output of account 1 stored twice: a row written without its note, and one with it. -/
def rescannedRow (id : Nat) (note : Bytes) : NoteRow where
  id := id
  accountId := 1
  keyId := none
  noteType := .sapling
  value := 75000
  nullifier := List.replicate 32 7
  commitment := List.replicate 32 8
  spent := false
  height := 500
  txid := [1, 2, 3]
  outputIndex := 2
  addressId := none
  spentTxid := none
  diversifier := some []
  note := some note
  position := none
  memo := none

/-- The transaction of the two rows. -/
def rescannedTransactions : List TransactionRow := [⟨1, hexEncode [1, 2, 3], 500, 1234567, 0⟩]

/-- The empty note of the row read first hides the note of the other. -/
theorem empty_note_hides_note :
    ¬ ReadsCanonically 1 [rescannedRow 1 [], rescannedRow 2 [1, 2, 3]] rescannedTransactions := by
  intro hreads
  have hread : getCanonicalReceivedNotes 1 [rescannedRow 1 [], rescannedRow 2 [1, 2, 3]]
      rescannedTransactions =
        .ok [⟨"030201", .sapling, 2, 75000, 500, some 1234567, none, some []⟩] := by
    decide +kernel
  have hcarried := hreads.carriesNote _ hread (rescannedRow 2 [1, 2, 3]) (by decide +kernel) _
    (List.mem_singleton_self _) (by decide +kernel) (by decide)
  cases hcarried

end StashiWallet
