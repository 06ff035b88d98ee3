import StashiWallet.Balance
import StashiWallet.NullifierCacheRuns
import StashiWallet.SendIntentRuns
import StashiWallet.WitnessReadiness

/-!
# What the balance adds

In every run that remembers the change of its broadcasts there is an entry for each transaction
with change of which no output is scanned (`BalanceRun.Accounted`). A total that is computed is
then right if and only if no entry is left of a transaction with a scanned output: such an entry
goes with the unspent note of the transaction, and stays if that note is spent before a balance
was computed. A total from the cache is right if and only if as much is held as when it was
computed, provided that it was right then.
-/

namespace StashiWallet

/-! ## Transactions of the stored notes -/

/-- The notes are of transactions in the list. -/
def Notes.ListedIn (outputs : List Bytes) (notes : Notes) : Prop :=
  ∀ row ∈ notes.rows, row.txid ∈ outputs

section Listed

variable {outputs : List Bytes} {notes : Notes}

theorem SameNote.txid_eq {row row' : NoteRow} (h : SameNote row row') : row'.txid = row.txid :=
  congrArg Prod.fst h.outputKey_eq

theorem NoteRecord.txid_of_outputKey {note : NoteRecord} {n : DecryptedNote}
    (h : note.outputKey = n.outputKey) : note.txid = n.txid := congrArg Prod.fst h

theorem Notes.ListedIn.rowsFrom {R : NoteRow → NoteRow → Prop} {after : Notes}
    (h : notes.ListedIn outputs) (hrows : AutoTable.RowsFrom R notes after)
    (hR : ∀ row row', R row row' → SameNote row row') : after.ListedIn outputs := by
  intro row' hrow'
  obtain ⟨row, hrow, hmove⟩ := hrows row' hrow'
  rw [(hR row row' hmove).txid_eq]
  exact h row hrow

theorem Notes.ListedIn.unspendWhere (h : notes.ListedIn outputs) (p : NoteRow → Bool) :
    Notes.ListedIn outputs (notes.updateWhere p NoteRow.unspend (fun _ => rfl)) := by
  intro row hrow
  obtain ⟨old, hold, rfl⟩ := List.mem_map.mp hrow
  split
  · exact h old hold
  · exact h old hold

/-- A batch stores notes of the transactions it lists. -/
theorem persistNotes_listedIn {engine : SyncEngine} (h : engine.db.notes.ListedIn outputs)
    {input : PersistInput} (hnotes : ∀ n ∈ input.notes, n.txid ∈ outputs) :
    (engine.persistNotes input).db.notes.ListedIn outputs := by
  refine persistNotes_keeps (P := fun row => row.txid ∈ outputs) h ⟨?_, ?_, ?_⟩
  · intro key rows folded hnonempty hrows hfolded
    obtain ⟨row, hrow⟩ := List.exists_mem_of_ne_nil rows hnonempty
    obtain ⟨-, hkey, hlisted⟩ := hrows row hrow
    have hsame : folded.outputKey = row.outputKey :=
      hfolded.outputKey row.outputKey (fun other hother => ((hrows other hother).2.1).trans hkey.symm)
    have htxid : folded.txid = row.txid := congrArg Prod.fst hsame
    rw [htxid]
    exact hlisted
  · intro n hn existing _ hkey _
    have htxid := @NoteRecord.txid_of_outputKey _ n
      (@upsert_outputKey (input.unlinkedSpends engine.accountId engine.db) n existing hkey
        (input.addressId n))
    show NoteRecord.txid _ ∈ outputs
    rw [htxid]
    exact hnotes n hn
  · intro n hn id
    have htxid := @NoteRecord.txid_of_outputKey ((input.newRecord engine.accountId n).link
      (n.linkedSpend (input.unlinkedSpends engine.accountId engine.db))) n (link_outputKey _ _)
    show NoteRecord.txid _ ∈ outputs
    rw [htxid]
    exact hnotes n hn

theorem applySpends_listedIn {engine : SyncEngine} (h : engine.db.notes.ListedIn outputs)
    (input : SpendInput) : (engine.applySpends input).db.notes.ListedIn outputs := by
  rcases applySpends_cases engine input with ⟨hsame, -⟩ | ⟨kept, recovered, fallbackEntries,
    updates, hrows, -, hafter⟩
  · rwa [hsame]
  · have hkept : kept.notes.ListedIn outputs := h.rowsFrom hrows (fun _ _ hmove => hmove.toSameNote)
    rcases hafter with ⟨hafter, -⟩ | hafter
    · rwa [hafter]
    · rw [hafter]
      exact hkept.rowsFrom (applySpendUpdatesWithTxmeta_rows _ _ _ _ _)
        (fun _ _ hmove => hmove.toSameNote)

/-- A call that follows the chain stores notes of the transactions it scans an output of. -/
theorem chain_listedIn {run : OutgoingRun} (h : run.engine.db.notes.ListedIn outputs)
    (call : ChainCall) :
    (call.step run).engine.db.notes.ListedIn (outputs ++ (SendEvent.chain call).outputs) := by
  have hmore : run.engine.db.notes.ListedIn (outputs ++ (SendEvent.chain call).outputs) :=
    fun row hrow => List.mem_append_left _ (h row hrow)
  cases call with
  | write write =>
    cases write with
    | updateCommitmentTrees trees => exact hmore
    | persistNotes input =>
      refine persistNotes_listedIn hmore (fun n hn => ?_)
      exact List.mem_append_right _ (List.mem_map_of_mem hn)
    | applySpends input => exact applySpends_listedIn hmore input
    | createCheckpoint trees => exact hmore
    | saveSyncState blocks flush =>
      have hnotes := (saveSyncState_write run.engine blocks flush).1
      show Notes.ListedIn _ (run.engine.write (.saveSyncState blocks flush)).db.notes
      rw [hnotes]
      exact hmore
  | ensureNullifierCache =>
    show Notes.ListedIn _ run.engine.ensureNullifierCache.db.notes
    rw [run.engine.ensureNullifierCache_db]
    exact hmore
  | truncate now height =>
    unfold ChainCall.step OutgoingRun.step
    dsimp only
    split
    · exact hmore
    · rename_i rolledBack hrollback
      obtain ⟨-, -, hdb, -⟩ := rollbackToCheckpoint_eq_ok hrollback
      show Notes.ListedIn _ rolledBack.db.notes
      rw [hdb]
      exact hmore.rowsFrom (truncated_rows now height run.engine.db)
        (fun _ _ hmove => hmove.toSameNote)
  | initializeLegacyExpiries accountId transactionLifetime => exact hmore
  | release accountId done =>
    cases done with
    | false => exact hmore
    | true => exact hmore.unspendWhere _
  | spendability scanQueue row => exact hmore

end Listed

namespace SendRun

variable {s : SendRun} {outputs : List Bytes}

/-- Marking the notes of a broadcast stores no note. -/
theorem recordAcceptedBroadcast_listedIn (h : s.db.notes.ListedIn outputs) (txid : Bytes)
    (now : Nat) (faults : RecordFaults) (stopped : Option Nat) :
    (s.recordAcceptedBroadcast txid now faults stopped).db.notes.ListedIn outputs := by
  refine recordAcceptedBroadcast_keeps (P := fun after => after.db.notes.ListedIn outputs) h ?_
    (fun _ hafter => hafter)
  intro context _ write hwrite after hafter
  rcases BroadcastContext.mem_writesMade hwrite with rfl | rfl | rfl
  · exact hafter.rowsFrom (spendByNullifier_rows _ _ _) (fun _ _ hmove => hmove.toSameNote)
  · exact hafter
  · exact hafter

/-- An event stores notes of the transactions it scans an output of. -/
theorem step_listedIn (h : s.db.notes.ListedIn outputs) (event : SendEvent) :
    (s.step event).db.notes.ListedIn (outputs ++ event.outputs) := by
  have hmore : s.db.notes.ListedIn (outputs ++ event.outputs) :=
    fun row hrow => List.mem_append_left _ (h row hrow)
  refine step_keeps (P := fun after => after.db.notes.ListedIn (outputs ++ event.outputs)) hmore
    ?chain (fun _ => hmore) (fun _ _ _ _ _ _ _ _ _ => hmore) ?broadcast ?sendP2sh (fun _ => hmore)
    (fun _ => hmore)
  case chain =>
    rintro call rfl
    exact chain_listedIn h call
  case broadcast =>
    intro tx now faults stopped _ _
    exact @recordAcceptedBroadcast_listedIn { s with accepted := s.accepted ++ [tx] } _ hmore
      tx.txid now faults stopped
  case sendP2sh =>
    intro signature now faults stopped targetHeight _ _ _
    exact @recordAcceptedBroadcast_listedIn { s with
      signed := s.signed ++ [signature.p2shTx targetHeight]
      accepted := s.accepted ++ [signature.p2shTx targetHeight] } _ hmore signature.txid now faults
        stopped

/-- The pending changes after a broadcast that is not stopped. -/
theorem recordAcceptedBroadcast_pendingChanges (txid : Bytes) (now : Nat)
    (faults : RecordFaults) :
    (s.recordAcceptedBroadcast txid now faults none).pendingChanges =
      match (if faults.openFails then none else s.contexts.lookup (hexEncode txid)) with
      | none => s.pendingChanges
      | some context => addPendingChange now (hexEncode txid) context.changeAmount
          s.pendingChanges := by
  unfold recordAcceptedBroadcast takeBroadcastContext
  dsimp only
  cases hcontext : s.contexts.lookup (hexEncode txid) with
  | none =>
    rw [ite_self]
    rfl
  | some context =>
    simp only [Option.map_some, Option.getD_some]
    unfold BroadcastContext.recordWrites
    split
    · rfl
    · split
      · split <;> rfl
      · split <;> rfl

end SendRun

/-! ## Pending changes -/

section Pending

variable {now change : Nat} {txid : String} {entries : List PendingChangeEntry}

/-- An entry after a change was added is the added one or was there before. -/
theorem mem_addPendingChange {entry : PendingChangeEntry}
    (h : entry ∈ addPendingChange now txid change entries) :
    entry = ⟨txid, change, now⟩ ∧ change ≠ 0 ∨ entry ∈ entries := by
  unfold addPendingChange at h
  split at h
  · exact Or.inr h
  · rename_i hchange
    dsimp only at h
    split at h
    · obtain ⟨old, hold, rfl⟩ := List.mem_map.mp h
      split
      · exact Or.inl ⟨rfl, hchange⟩
      · exact Or.inr (List.mem_of_mem_filter hold)
    · rcases List.mem_append.mp h with hold | hnew
      · exact Or.inr (List.mem_of_mem_filter hold)
      · exact Or.inl ⟨List.mem_singleton.mp hnew, hchange⟩

theorem addPendingChange_mem (hchange : change ≠ 0) :
    ⟨txid, change, now⟩ ∈ addPendingChange now txid change entries := by
  unfold addPendingChange
  rw [if_neg hchange]
  dsimp only
  split
  · rename_i hany
    obtain ⟨old, hold, hsame⟩ := List.any_eq_true.mp hany
    exact List.mem_map.mpr ⟨old, hold, if_pos hsame⟩
  · exact List.mem_append_right _ (List.mem_singleton_self _)

/-- An entry of another transaction stays while it is in time. -/
theorem mem_addPendingChange_of_ne {entry : PendingChangeEntry} (hentry : entry ∈ entries)
    (hne : entry.txid ≠ txid) (htime : now - entry.broadcastAtMs ≤ PENDING_CHANGE_TTL_MS) :
    entry ∈ addPendingChange now txid change entries := by
  have hkept : entry ∈ entries.filter
      (fun entry => now - entry.broadcastAtMs ≤ PENDING_CHANGE_TTL_MS) :=
    List.mem_filter.mpr ⟨hentry, decide_eq_true htime⟩
  unfold addPendingChange
  split
  · exact hentry
  · dsimp only
    split
    · exact List.mem_map.mpr ⟨entry, hkept, if_neg (by simpa using hne)⟩
    · exact List.mem_append_left _ hkept

theorem addPendingChange_nodup (h : (entries.map (·.txid)).Nodup) :
    ((addPendingChange now txid change entries).map (·.txid)).Nodup := by
  have hkept : ((entries.filter
      (fun entry => now - entry.broadcastAtMs ≤ PENDING_CHANGE_TTL_MS)).map (·.txid)).Nodup :=
    h.sublist (List.filter_sublist.map _)
  unfold addPendingChange
  split
  · exact h
  · dsimp only
    split
    · rw [List.map_map]
      have hsame : ∀ entry : PendingChangeEntry, ((fun entry => entry.txid) ∘ fun entry =>
          if (entry.txid == txid) = true then (⟨txid, change, now⟩ : PendingChangeEntry)
          else entry) entry = entry.txid := by
        intro entry
        simp only [Function.comp_apply]
        split
        · rename_i heq
          exact (beq_iff_eq.mp heq).symm
        · rfl
      rw [List.map_congr_left (fun entry _ => hsame entry)]
      exact hkept
    · rename_i hany
      rw [List.map_append, List.nodup_append]
      refine ⟨hkept, List.nodup_singleton _, ?_⟩
      intro a ha b hb heq
      obtain ⟨entry, hentry, rfl⟩ := List.mem_map.mp ha
      refine hany (List.any_eq_true.mpr ⟨entry, hentry, ?_⟩)
      rw [heq]
      simpa using hb

end Pending

/-! ## The value of the notes -/

/-- The ids by which a transaction is known are those of its id, in both byte orders. -/
theorem mem_txidHexVariants {tx : SignedTx} {output : Bytes} :
    tx.txidHex ∈ txidHexVariantsFromBytes output ↔ output = tx.txid ∨ output = tx.txid.reverse := by
  have hreverse : hexEncode tx.txid = hexEncode output.reverse ↔ output = tx.txid.reverse := by
    rw [hexEncode_injective.eq_iff, List.reverse_eq_iff.symm, eq_comm]
  have hsame : hexEncode tx.txid = hexEncode output ↔ output = tx.txid := by
    rw [hexEncode_injective.eq_iff, eq_comm]
  have hlength : output = tx.txid ∨ output = tx.txid.reverse → output.length = 32 := by
    rintro (rfl | rfl)
    · exact tx.txid_length
    · rw [List.length_reverse, tx.txid_length]
  unfold SignedTx.txidHex txidHexVariantsFromBytes
  split
  · rename_i hempty
    refine ⟨fun hin => absurd hin List.not_mem_nil, fun hnames => ?_⟩
    have hnone := hlength hnames
    rw [List.isEmpty_iff.mp hempty] at hnone
    cases hnone
  · split
    · rename_i hother
      rw [List.mem_singleton, hsame]
      refine ⟨Or.inl, fun hnames => absurd (hlength hnames) hother⟩
    · split
      · rename_i hpalindrome
        rw [List.mem_singleton, hsame]
        refine ⟨Or.inl, fun hnames => hnames.elim id (fun hrev => ?_)⟩
        rw [← hreverse, hpalindrome] at hrev
        exact hsame.mp hrev
      · rw [List.mem_cons, List.mem_singleton, hsame, hreverse]

namespace BalanceRun

variable {changeOf : String → Nat} {b : BalanceRun}

/-- There is an entry for each accepted transaction with change and without a scanned output, and
each entry is of an accepted transaction. -/
structure Accounted (changeOf : String → Nat) (b : BalanceRun) : Prop where
  ids : b.send.Ids
  accepted : ∀ tx ∈ b.send.accepted, tx ∈ b.send.signed
  listed : b.send.db.notes.ListedIn b.outputs
  entries : ∀ entry ∈ b.send.pendingChanges, entry.changeAmount = changeOf entry.txid ∧
    entry.changeAmount ≠ 0 ∧ ∃ tx ∈ b.send.accepted, entry.txid = tx.txidHex
  nodup : (b.send.pendingChanges.map (·.txid)).Nodup
  complete : ∀ tx ∈ b.send.accepted, changeOf tx.txidHex ≠ 0 → ¬ b.Seen tx.txid →
    ∃ entry ∈ b.send.pendingChanges, entry.txid = tx.txidHex

/-- The transaction of the entry has a scanned output. -/
def EntrySeen (b : BalanceRun) (entry : PendingChangeEntry) : Prop :=
  ∃ tx ∈ b.send.accepted, entry.txid = tx.txidHex ∧ b.Seen tx.txid

instance (b : BalanceRun) (entry : PendingChangeEntry) : Decidable (b.EntrySeen entry) :=
  inferInstanceAs (Decidable (∃ tx ∈ b.send.accepted, _))

variable (h : b.Accounted changeOf)

include h in
/-- An accepted transaction is determined by its id. -/
theorem Accounted.eq_of_txidHex {tx other : SignedTx} (htx : tx ∈ b.send.accepted)
    (hother : other ∈ b.send.accepted) (hsame : tx.txidHex = other.txidHex) : tx = other :=
  h.ids.ids tx (h.accepted tx htx) other (h.accepted other hother)
    (Or.inl (hexEncode_injective hsame))

include h in
/-- Steps that neither accept a transaction nor change what is pending leave the invariant. -/
theorem Accounted.of_same {after : BalanceRun} (hids : after.send.Ids)
    (hlisted : after.send.db.notes.ListedIn after.outputs)
    (haccepted : after.send.accepted = b.send.accepted)
    (hsigned : ∀ tx ∈ b.send.signed, tx ∈ after.send.signed)
    (hpending : after.send.pendingChanges = b.send.pendingChanges)
    (houtputs : ∀ output ∈ b.outputs, output ∈ after.outputs) : after.Accounted changeOf where
  ids := hids
  accepted := by
    rw [haccepted]
    exact fun tx htx => hsigned tx (h.accepted tx htx)
  listed := hlisted
  entries := by
    rw [hpending, haccepted]
    exact h.entries
  nodup := by
    rw [hpending]
    exact h.nodup
  complete := by
    rw [hpending, haccepted]
    intro tx htx hchange hunseen
    refine h.complete tx htx hchange (fun ⟨output, houtput, hsame⟩ => hunseen ?_)
    exact ⟨output, houtputs output houtput, hsame⟩

/-- Where nothing is pending, the memory may be lost. -/
theorem Accounted.forget (hnothing : NothingPending changeOf b)
    {after : BalanceRun} (hids : after.send.Ids)
    (hlisted : after.send.db.notes.ListedIn after.outputs)
    (haccepted : ∀ tx ∈ after.send.accepted, tx ∈ after.send.signed ∧
      (tx ∈ b.send.accepted ∨ changeOf tx.txidHex = 0 ∨ b.Seen tx.txid))
    (hpending : after.send.pendingChanges = [])
    (houtputs : ∀ output ∈ b.outputs, output ∈ after.outputs) : after.Accounted changeOf where
  ids := hids
  accepted := fun tx htx => (haccepted tx htx).1
  listed := hlisted
  entries := by
    rw [hpending]
    exact List.forall_mem_nil _
  nodup := by
    rw [hpending]
    exact List.nodup_nil
  complete := by
    intro tx htx hchange hunseen
    exfalso
    have hseen : b.Seen tx.txid := by
      rcases (haccepted tx htx).2 with hold | hzero | hseen
      · exact hnothing tx hold hchange
      · exact absurd hzero hchange
      · exact hseen
    obtain ⟨output, houtput, hsame⟩ := hseen
    exact hunseen ⟨output, houtputs output houtput, hsame⟩

include h in
/-- A broadcast whose change is recorded as it is, or that pays none back, or is seen. -/
theorem Accounted.record {tx : SignedTx} {now : Nat} {faults : RecordFaults}
    (htx : tx ∈ b.send.signed) (htime : b.recordedChange tx.txid faults ≠ none → b.InTime now)
    (hrecords : match b.recordedChange tx.txid faults with
      | some change => change = changeOf tx.txidHex
      | none => tx ∈ b.send.accepted ∨ changeOf tx.txidHex = 0 ∨ b.Seen tx.txid)
    {after : BalanceRun} (houtputs : after.outputs = b.outputs) (hids : after.send.Ids)
    (hlisted : after.send.db.notes.ListedIn after.outputs)
    (hafter : after.send = { b.send with
      accepted := b.send.accepted ++ [tx] }.recordAcceptedBroadcast tx.txid now faults none) :
    after.Accounted changeOf := by
  obtain ⟨hsigned, haccepted⟩ := @SendRun.recordAcceptedBroadcast_frame
    { b.send with accepted := b.send.accepted ++ [tx] } tx.txid now faults none
  rw [← hafter] at hsigned haccepted
  have hpending := @SendRun.recordAcceptedBroadcast_pendingChanges
    { b.send with accepted := b.send.accepted ++ [tx] } tx.txid now faults
  rw [← hafter] at hpending
  have hall : ∀ other ∈ after.send.accepted, other ∈ after.send.signed := by
    rw [haccepted, hsigned]
    intro other hother
    rcases List.mem_append.mp hother with hold | hnew
    · exact h.accepted other hold
    · exact List.mem_singleton.mp hnew ▸ htx
  have hseen : ∀ txid, after.Seen txid ↔ b.Seen txid := by
    intro txid
    unfold Seen
    rw [houtputs]
  unfold recordedChange at hrecords htime
  cases hcontext : (if faults.openFails then none
      else b.send.contexts.lookup (hexEncode tx.txid)) with
  | none =>
    have hnone : (if faults.openFails then none
        else (b.send.contexts.lookup (hexEncode tx.txid)).map (·.changeAmount)) = none := by
      split
      · rfl
      · rename_i hopen
        rw [if_neg hopen] at hcontext
        rw [hcontext]
        rfl
    rw [hnone] at hrecords
    dsimp only at hrecords hpending
    rw [hcontext] at hpending
    refine ⟨hids, hall, hlisted, ?_, ?_, ?_⟩
    · rw [hpending, haccepted]
      intro entry hentry
      obtain ⟨hchange, hpositive, other, hother, hsame⟩ := h.entries entry hentry
      exact ⟨hchange, hpositive, other, List.mem_append_left _ hother, hsame⟩
    · rw [hpending]
      exact h.nodup
    · rw [hpending, haccepted]
      intro other hother hchange hunseen
      rw [hseen] at hunseen
      refine h.complete other ?_ hchange hunseen
      rcases List.mem_append.mp hother with hold | hnew
      · exact hold
      · rw [List.mem_singleton.mp hnew] at hchange hunseen ⊢
        rcases hrecords with hold | hzero | hsaw
        · exact hold
        · exact absurd hzero hchange
        · exact absurd hsaw hunseen
  | some context =>
    have hsome : (if faults.openFails then none
        else (b.send.contexts.lookup (hexEncode tx.txid)).map (·.changeAmount)) =
          some context.changeAmount := by
      split
      · rename_i hopen
        rw [if_pos hopen] at hcontext
        cases hcontext
      · rename_i hopen
        rw [if_neg hopen] at hcontext
        rw [hcontext]
        rfl
    rw [hsome] at hrecords htime
    dsimp only at hrecords hpending
    rw [hcontext] at hpending
    dsimp only at hpending
    refine ⟨hids, hall, hlisted, ?_, ?_, ?_⟩
    · rw [hpending, haccepted]
      intro entry hentry
      rcases mem_addPendingChange hentry with ⟨rfl, hpositive⟩ | hold
      · exact ⟨hrecords, hpositive, tx, List.mem_append_right _ (List.mem_singleton_self tx), rfl⟩
      · obtain ⟨hchange, hpositive, other, hother, hsame⟩ := h.entries entry hold
        exact ⟨hchange, hpositive, other, List.mem_append_left _ hother, hsame⟩
    · rw [hpending]
      exact addPendingChange_nodup h.nodup
    · rw [hpending, haccepted]
      intro other hother hchange hunseen
      rw [hseen] at hunseen
      by_cases hsame : other.txidHex = tx.txidHex
      · refine ⟨_, addPendingChange_mem ?_, hsame.symm⟩
        rw [hrecords, ← hsame]
        exact hchange
      · have hold : other ∈ b.send.accepted := by
          refine (List.mem_append.mp hother).resolve_right (fun hnew => hsame ?_)
          rw [List.mem_singleton.mp hnew]
        obtain ⟨entry, hentry, hentrySame⟩ := h.complete other hold hchange hunseen
        exact ⟨entry, mem_addPendingChange_of_ne hentry (fun heq => hsame (hentrySame.symm.trans heq))
          (htime nofun other hold hunseen entry hentry hentrySame), hentrySame⟩

include h in
/-- A broadcast that is stopped loses the memory. -/
theorem Accounted.recordStopped {tx : SignedTx} {now count : Nat} {faults : RecordFaults}
    (htx : tx ∈ b.send.signed) (hnothing : NothingPending changeOf b)
    (hown : changeOf tx.txidHex = 0 ∨ b.Seen tx.txid) {after : BalanceRun} (hids : after.send.Ids)
    (hlisted : after.send.db.notes.ListedIn after.outputs)
    (hafter : after.send = { b.send with
      accepted := b.send.accepted ++ [tx] }.recordAcceptedBroadcast tx.txid now faults (some count))
    (houtputs : ∀ output ∈ b.outputs, output ∈ after.outputs) : after.Accounted changeOf := by
  obtain ⟨hsigned, haccepted⟩ := @SendRun.recordAcceptedBroadcast_frame
    { b.send with accepted := b.send.accepted ++ [tx] } tx.txid now faults (some count)
  rw [← hafter] at hsigned haccepted
  refine Accounted.forget hnothing hids hlisted ?_ ?_ houtputs
  · rw [hsigned, haccepted]
    intro other hother
    rcases List.mem_append.mp hother with hold | hnew
    · exact ⟨h.accepted other hold, Or.inl hold⟩
    · rw [List.mem_singleton.mp hnew]
      exact ⟨htx, Or.inr hown⟩
  · rw [hafter]
    rfl

/-- A new transaction has no context, so nothing is recorded of it. -/
theorem recordedChange_of_new (hids : b.send.Ids) {txid : Bytes} (hnew : b.send.NewTxid txid)
    (faults : RecordFaults) : b.recordedChange txid faults = none := by
  unfold recordedChange
  split
  · rfl
  · cases hcontext : b.send.contexts.lookup (hexEncode txid) with
    | none => rfl
    | some context => exact absurd rfl (hids.key_ne hnew (mem_of_lookup hcontext))

include h in
/-- A swap's transaction is signed, and then broadcast without a context. -/
theorem Accounted.recordP2sh {tx : SignedTx} {now : Nat} {faults : RecordFaults}
    {stopped : Option Nat} (hnew : b.send.NewTxid tx.txid)
    (hstopped : stopped ≠ none → NothingPending changeOf b)
    (hown : changeOf tx.txidHex = 0 ∨ b.Seen tx.txid) {after : BalanceRun}
    (houtputs : after.outputs = b.outputs) (hids : after.send.Ids)
    (hlisted : after.send.db.notes.ListedIn after.outputs)
    (hafter : after.send = { b.send with
      signed := b.send.signed ++ [tx]
      accepted := b.send.accepted ++ [tx] }.recordAcceptedBroadcast tx.txid now faults stopped) :
    after.Accounted changeOf := by
  let signed : BalanceRun := { b with send := { b.send with signed := b.send.signed ++ [tx] } }
  have hsigned : signed.Accounted changeOf :=
    h.of_same (@SendRun.Ids.sign b.send h.ids tx hnew b.send.contexts
      (fun entry hentry => Or.inl hentry)) h.listed rfl
      (fun _ htx => List.mem_append_left _ htx) rfl (fun _ houtput => houtput)
  have htx : tx ∈ signed.send.signed := List.mem_append_right _ (List.mem_singleton_self tx)
  have hnone : signed.recordedChange tx.txid faults = none :=
    recordedChange_of_new h.ids hnew faults
  cases stopped with
  | none =>
    refine hsigned.record htx (fun hsome => absurd hnone hsome) ?_ houtputs hids hlisted hafter
    rw [hnone]
    exact Or.inr hown
  | some count =>
    refine hsigned.recordStopped htx (hstopped nofun) hown hids hlisted hafter ?_
    rw [houtputs]
    exact fun _ houtput => houtput

include h in
/-- An event of the send flow that remembers the change keeps the invariant. -/
theorem Accounted.sendStep {event : SendEvent} (hremembers : b.Remembers changeOf (.send event)) :
    (b.step (.send event)).Accounted changeOf := by
  -- the ids and the notes are known of every event, so that the accepted transactions are left
  let outputs := b.outputs ++ event.outputs
  let cached := if event.restarts then none else b.cached
  have houtputs : ∀ output ∈ b.outputs, output ∈ outputs :=
    fun output houtput => List.mem_append_left _ houtput
  refine SendRun.step_keeps (P := fun after => after.Ids → after.db.notes.ListedIn outputs →
    Accounted changeOf ⟨after, outputs, cached⟩) ?same ?chain ?build ?sign ?broadcast ?sendP2sh
    ?dropContext ?restart (h.ids.step event) (SendRun.step_listedIn h.listed event)
  case same => exact fun hids hlisted => h.of_same hids hlisted rfl (fun _ htx => htx) rfl houtputs
  case chain =>
    exact fun _ _ hids hlisted => h.of_same hids hlisted rfl (fun _ htx => htx) rfl houtputs
  case build =>
    exact fun _ hids hlisted => h.of_same hids hlisted rfl (fun _ htx => htx) rfl houtputs
  case sign =>
    intro pending signature accountId now targetHeight _ _ _ _ hids hlisted
    exact h.of_same hids hlisted rfl (fun _ htx => List.mem_append_left _ htx) rfl houtputs
  case broadcast =>
    rintro tx now faults stopped rfl htx hids hlisted
    obtain ⟨htime, hstopped, hrecords⟩ := hremembers htx
    cases stopped with
    | none =>
      exact h.record htx (fun _ => htime) hrecords (List.append_nil _) hids hlisted rfl
    | some count =>
      obtain ⟨hnothing, hown⟩ := hstopped nofun
      refine h.recordStopped htx hnothing ?_ hids hlisted rfl houtputs
      by_cases hzero : changeOf tx.txidHex = 0
      · exact Or.inl hzero
      · exact Or.inr (hown hzero)
  case sendP2sh =>
    rintro signature now faults stopped targetHeight rfl htarget hnew hids hlisted
    obtain ⟨hstopped, hown⟩ := hremembers (by rw [htarget]; rfl) hnew
    exact @Accounted.recordP2sh changeOf b h (signature.p2shTx targetHeight) now faults stopped
      hnew hstopped hown _ (List.append_nil _) hids hlisted rfl
  case dropContext =>
    exact fun _ hids hlisted => h.of_same hids hlisted rfl (fun _ htx => htx) rfl houtputs
  case restart =>
    rintro rfl hids hlisted
    refine Accounted.forget hremembers hids hlisted ?_ rfl houtputs
    exact fun tx htx => ⟨h.accepted tx htx, Or.inl htx⟩

/-! ## A balance -/

include h in
/-- The reconciliation of the outgoing transactions keeps the invariant. -/
theorem Accounted.readFrom (accountId : Int) (mode : BalanceMode) :
    Accounted changeOf { b with send := b.send.readFrom accountId mode } := by
  cases mode with
  | live =>
    let first : SendEvent :=
      .chain (.initializeLegacyExpiries accountId TRANSACTION_EXPIRY_BLOCKS)
    let release : SendEvent := .chain (.release accountId true)
    have hlisted : (b.send.reconciled accountId).db.notes.ListedIn b.outputs := by
      have htwo := SendRun.step_listedIn (SendRun.step_listedIn h.listed first) release
      have hnone : b.outputs ++ first.outputs ++ release.outputs = b.outputs :=
        (List.append_nil _).trans (List.append_nil _)
      rwa [hnone] at htwo
    have hids : (b.send.reconciled accountId).Ids := (h.ids.step first).step release
    exact h.of_same hids hlisted rfl (fun _ htx => htx) rfl (fun _ houtput => houtput)
  | mutating => exact h
  | decoy => exact h

/-- Reading leaves what is in memory, and what was accepted. -/
theorem readFrom_memory (s : SendRun) (accountId : Int) (mode : BalanceMode) :
    (s.readFrom accountId mode).pendingChanges = s.pendingChanges ∧
      (s.readFrom accountId mode).accepted = s.accepted := by
  cases mode with
  | live => exact ⟨rfl, rfl⟩
  | mutating => exact ⟨rfl, rfl⟩
  | decoy => exact ⟨rfl, rfl⟩

include h in
/-- An entry without a scanned output is kept: no stored note is of its transaction. -/
theorem Accounted.unseen_kept {accountId : Int} {now : Nat} {mode : BalanceMode}
    (htime : b.InTime now) {entry : PendingChangeEntry} (hentry : entry ∈ b.send.pendingChanges)
    (hunseen : ¬ b.EntrySeen entry) :
    entry ∈ unresolvedChanges now
      (knownTxids ((b.send.readFrom accountId mode).db.notes.getUnspentNotes accountId))
      b.send.pendingChanges := by
  obtain ⟨-, -, tx, htx, hsame⟩ := h.entries entry hentry
  have hown : ¬ b.Seen tx.txid := fun hseen => hunseen ⟨tx, htx, hsame, hseen⟩
  refine List.mem_filter.mpr ⟨hentry, ?_⟩
  rw [Bool.and_eq_true, Bool.not_eq_true']
  refine ⟨decide_eq_true (htime tx htx hown entry hentry hsame), ?_⟩
  rw [← Bool.not_eq_true, List.contains_iff_mem]
  intro hknown
  obtain ⟨row, hrow, hvariant⟩ := List.mem_flatMap.mp hknown
  rw [hsame] at hvariant
  refine hown ⟨row.txid, ?_, mem_txidHexVariants.mp hvariant⟩
  exact (h.readFrom accountId mode).listed row (mem_latestUnspent.mp hrow).mem

include h in
/-- A balance that is computed in time keeps the invariant. -/
theorem Accounted.computeBalance {accountId : Int} {now : Nat} {mode : BalanceMode}
    (htime : b.InTime now) (cached : Option (Balance × Holdings)) :
    Accounted changeOf ⟨(b.send.computeBalance accountId now mode).2, b.outputs, cached⟩ := by
  have hread := h.readFrom accountId mode
  obtain ⟨hpending, haccepted⟩ := readFrom_memory b.send accountId mode
  unfold SendRun.computeBalance
  dsimp only
  split
  · exact ⟨hread.ids, hread.accepted, hread.listed, hread.entries, hread.nodup, hread.complete⟩
  · unfold resolvePendingChange
    dsimp only
    refine ⟨hread.ids.of_sub rfl (fun _ hentry => hentry)
      (fun intent hintent => ⟨intent, hintent, rfl⟩), hread.accepted, hread.listed, ?_, ?_, ?_⟩
    · exact fun entry hentry => hread.entries entry (List.mem_of_mem_filter hentry)
    · exact hread.nodup.sublist (List.filter_sublist.map _)
    · intro tx htx hchange hunseen
      dsimp only at htx hunseen ⊢
      rw [haccepted] at htx
      obtain ⟨entry, hentry, hsame⟩ := h.complete tx htx hchange hunseen
      rw [hpending]
      refine ⟨entry, h.unseen_kept htime hentry ?_, hsame⟩
      rintro ⟨other, hother, hotherSame, hseen⟩
      rw [h.eq_of_txidHex htx hother (hsame.symm.trans hotherSame)] at hunseen
      exact hunseen hseen

include h in
/-- A balance that is asked for in time keeps the invariant. -/
theorem Accounted.getBalance {accountId : Int} {now : Nat} {mode : BalanceMode}
    (htime : b.answered mode = none → b.InTime now) :
    (b.step (.getBalance accountId now mode)).Accounted changeOf := by
  unfold step BalanceRun.getBalance
  dsimp only
  split
  · exact h
  · rename_i hanswered
    have hcomputed := @Accounted.computeBalance changeOf b h accountId now mode (htime hanswered)
    split
    · rename_i heq
      rw [heq] at hcomputed
      exact hcomputed _
    · rename_i heq
      rw [heq] at hcomputed
      exact hcomputed _

include h in
/-- The step lemma: what remembers the change keeps the invariant. -/
theorem Accounted.step {event : BalanceEvent} (hremembers : b.Remembers changeOf event) :
    (b.step event).Accounted changeOf := by
  cases event with
  | send event => exact h.sendStep hremembers
  | getBalance accountId now mode => exact h.getBalance (fun hread => (hremembers hread).1)
  | clearCache => exact ⟨h.ids, h.accepted, h.listed, h.entries, h.nodup, h.complete⟩

/-- The cached balance was right when it was computed. -/
def CachedRight (changeOf : String → Nat) (b : BalanceRun) : Prop :=
  ∀ entry ∈ b.cached, entry.1.total = entry.2.total changeOf

/-- What is answered without reading the notes was right once: the decoy mode has no notes. -/
theorem CachedRight.answered (h : b.CachedRight changeOf) {mode : BalanceMode}
    {entry : Balance × Holdings} (hanswered : b.answered mode = some entry) :
    entry.1.total = entry.2.total changeOf := by
  cases mode with
  | live => cases hanswered
  | mutating => exact h entry hanswered
  | decoy =>
    obtain rfl := Option.some.inj hanswered
    rfl

/-- A balance that is right is cached as it is. -/
theorem CachedRight.step (h : b.CachedRight changeOf) {event : BalanceEvent}
    (hright : b.ReportsTotal changeOf event) : (b.step event).CachedRight changeOf := by
  cases event with
  | send event =>
    unfold BalanceRun.step CachedRight
    dsimp only
    split
    · exact nofun
    · exact h
  | clearCache => exact nofun
  | getBalance accountId now mode =>
    unfold ReportsTotal at hright
    unfold BalanceRun.step
    unfold BalanceRun.getBalance at hright ⊢
    dsimp only at hright ⊢
    split at hright
    · exact h
    · split at hright
      · exact h
      · intro entry hentry
        obtain rfl := Option.some.inj hentry
        exact hright _ rfl

end BalanceRun

end StashiWallet
