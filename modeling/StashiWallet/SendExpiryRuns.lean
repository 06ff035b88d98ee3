import StashiWallet.SendFlow

/-!
# The expiry height that is recorded

The height recorded for an outgoing transaction is fixed when it is built, from the height
scanned so far; the height in the transaction when it is signed, from the target. As long as no
signature is made for a target above the height of the build, what is recorded is not below what
is in the transaction (`SendRun.RecordsExpiry`), in every run, and a release gives back the notes
of transactions only that no further block can contain.
-/

namespace StashiWallet

namespace SendRun

/-- The expiry height of an intent is not below that of the transaction it names. -/
def RecordsExpiry (s : SendRun) : Prop :=
  ∀ intent ∈ s.run.intents, ∀ tx ∈ s.signed, tx.txid ∈ txidHexCandidates intent.txid →
    tx.expiryHeight ≤ intent.expiryHeight

/-- A release changes the notes only of transactions whose expiry height was scanned past. -/
def ReleasesUnminable (s : SendRun) : SendEvent → Prop
  | .chain (.release accountId done) =>
    ∀ row ∈ s.db.notes.rows,
      ∀ row' ∈ (s.step (.chain (.release accountId done))).db.notes.rows,
        row'.id = row.id → row' ≠ row → ∀ tx ∈ s.signed,
          row.spentTxid = some tx.txid ∨ row.spentTxid = some tx.txid.reverse →
            tx.expiryHeight < s.run.localHeight
  | _ => True

/-- A transaction is not signed for a target height above the height it was built at: its
expiry height is then within what was recorded. -/
def SignsInTime (s : SendRun) : SendEvent → Prop
  | .sign pending _ _ _ => ∀ targetHeight, s.signTargetHeight = some targetHeight →
      pending ∈ s.built → targetHeight + TRANSACTION_EXPIRY_BLOCKS ≤ pending.expiryHeight
  | _ => True

/-- What is recorded and what is in memory is not below what is in the transactions. -/
structure ExpiryInvariant (s : SendRun) : Prop extends Ids s where
  intents : s.RecordsExpiry
  contexts : ∀ entry ∈ s.contexts, ∀ tx ∈ s.signed, entry.1 = tx.txidHex →
    tx.expiryHeight ≤ entry.2.expiryHeight

/-! ## What the steps do -/

section Steps

variable {s : SendRun}

/-- Steps after which the intents name no other heights leave the invariant. -/
theorem ExpiryInvariant.of_sub (h : s.ExpiryInvariant) {after : SendRun}
    (hsigned : after.signed = s.signed) (hcontexts : ∀ entry ∈ after.contexts, entry ∈ s.contexts)
    (hintents : ∀ intent ∈ after.run.intents, ∃ stored ∈ s.run.intents,
      stored.txid = intent.txid ∧ stored.expiryHeight ≤ intent.expiryHeight) :
    after.ExpiryInvariant where
  toIds := by
    refine h.toIds.of_sub hsigned hcontexts (fun intent hintent => ?_)
    obtain ⟨stored, hstored, htxid, -⟩ := hintents intent hintent
    exact ⟨stored, hstored, htxid⟩
  intents := by
    intro intent hintent tx htx hcandidate
    obtain ⟨stored, hstored, htxid, hheight⟩ := hintents intent hintent
    rw [hsigned] at htx
    rw [← htxid] at hcandidate
    exact (h.intents stored hstored tx htx hcandidate).trans hheight
  contexts := by
    intro entry hentry
    rw [hsigned]
    exact h.contexts entry (hcontexts entry hentry)

/-- A transaction with a new id is signed; a context of it has a height that is not below. -/
theorem ExpiryInvariant.sign (h : s.ExpiryInvariant) {tx : SignedTx} (hnew : s.NewTxid tx.txid)
    {contexts : BroadcastContexts} (hcontexts : ∀ entry ∈ contexts,
      entry ∈ s.contexts ∨ entry.1 = tx.txidHex ∧ tx.expiryHeight ≤ entry.2.expiryHeight) :
    ExpiryInvariant { s with signed := s.signed ++ [tx], contexts := contexts } where
  toIds := h.toIds.sign hnew (fun entry hentry => (hcontexts entry hentry).imp_right And.left)
  intents := by
    intro intent hintent other hother hcandidate
    rcases List.mem_append.mp hother with hold | hsame
    · exact h.intents intent hintent other hold hcandidate
    · obtain rfl := List.mem_singleton.mp hsame
      exact absurd hcandidate (hnew.2 intent hintent)
  contexts := by
    intro entry hentry other hother hkey
    rcases List.mem_append.mp hother with hold | hsame
    · rcases hcontexts entry hentry with hstored | ⟨hown, -⟩
      · exact h.contexts entry hstored other hold hkey
      · exact absurd (hexEncode_injective (hkey.symm.trans hown)) (hnew.1 other hold).1
    · obtain rfl := List.mem_singleton.mp hsame
      rcases hcontexts entry hentry with hstored | ⟨-, hheight⟩
      · exact absurd hkey (h.key_ne hnew hstored)
      · exact hheight

/-- What is recorded after a broadcast is what the context says. -/
theorem ExpiryInvariant.recordAcceptedBroadcast (h : s.ExpiryInvariant) {tx : SignedTx}
    (htx : tx ∈ s.signed) (now : Nat) (faults : RecordFaults) (stopped : Option Nat) :
    (s.recordAcceptedBroadcast tx.txid now faults stopped).ExpiryInvariant := by
  have hkeeps := @recordAcceptedBroadcast_keeps
    (fun after => after.RecordsExpiry ∧ after.signed = s.signed ∧
      ∀ entry ∈ after.contexts, entry ∈ s.contexts) s tx.txid now faults stopped
  obtain ⟨hintents, hsigned, hcontexts⟩ := hkeeps ⟨h.intents, rfl,
    fun _ hentry => mem_takeBroadcastContext hentry⟩ (by
      rintro context hcontext write hwrite after ⟨hafter, hsigned, hsub⟩
      rcases BroadcastContext.mem_writesMade hwrite with rfl | rfl | rfl
      · exact ⟨hafter, hsigned, hsub⟩
      · exact ⟨hafter, hsigned, hsub⟩
      · refine ⟨?_, hsigned, hsub⟩
        intro intent hintent other hother hcandidate
        rcases @OutgoingRun.mem_storeIntent (context.intent tx.txid now) intent after.run.intents
          after.run.engine.db.transactions hintent with rfl | hold
        · -- the intent names this transaction only
          have hother' : other ∈ s.signed := hsigned ▸ hother
          obtain rfl := h.eq_of_named htx hother' hcandidate
          exact h.contexts _ (mem_of_lookup hcontext) other htx rfl
        · exact hafter intent hold other hother hcandidate)
    (fun after hafter => ⟨hafter.1, hafter.2.1, nofun⟩)
  refine ⟨h.toIds.recordAcceptedBroadcast htx now faults stopped, hintents, ?_⟩
  rw [hsigned]
  exact fun entry hentry => h.contexts entry (hcontexts entry hentry)

/-- The step lemma: an event that signs in time keeps the invariant. -/
theorem ExpiryInvariant.step (h : s.ExpiryInvariant) {event : SendEvent}
    (htime : s.SignsInTime event) : (s.step event).ExpiryInvariant := by
  have hsame : ∀ intent ∈ s.run.intents, ∃ stored ∈ s.run.intents,
      stored.txid = intent.txid ∧ stored.expiryHeight ≤ intent.expiryHeight :=
    fun intent hintent => ⟨intent, hintent, rfl, le_refl _⟩
  refine step_keeps h ?chain ?build ?sign ?broadcast ?sendP2sh ?dropContext ?restart
  case chain => exact fun call _ => h.of_sub rfl (fun _ hentry => hentry) (chain_intents s.run call)
  case build => exact fun built => h.of_sub rfl (fun _ hentry => hentry) hsame
  case sign =>
    rintro pending signature accountId now targetHeight rfl htarget hbuilt hnew
    refine @ExpiryInvariant.sign s h (signature.tx targetHeight) hnew _ (fun entry hentry => ?_)
    rcases mem_storeBroadcastContext hentry with rfl | ⟨hold, -⟩
    · exact Or.inr ⟨rfl, htime targetHeight htarget hbuilt⟩
    · exact Or.inl hold
  case broadcast =>
    intro tx now faults stopped _ htx
    have haccepted : ExpiryInvariant { s with accepted := s.accepted ++ [tx] } :=
      h.of_sub rfl (fun _ hentry => hentry) hsame
    exact haccepted.recordAcceptedBroadcast htx now faults stopped
  case sendP2sh =>
    intro signature now faults stopped targetHeight _ _ hnew
    have hsigned := @ExpiryInvariant.sign s h (signature.p2shTx targetHeight) hnew s.contexts
      (fun entry hentry => Or.inl hentry)
    have haccepted : ExpiryInvariant { s with
        signed := s.signed ++ [signature.p2shTx targetHeight]
        accepted := s.accepted ++ [signature.p2shTx targetHeight] } :=
      hsigned.of_sub rfl (fun _ hentry => hentry) hsame
    have htx : signature.p2shTx targetHeight ∈ s.signed ++ [signature.p2shTx targetHeight] :=
      List.mem_append_right _ (List.mem_singleton_self _)
    exact haccepted.recordAcceptedBroadcast htx now faults stopped
  case dropContext =>
    exact fun txid => h.of_sub rfl (fun _ hentry => mem_takeBroadcastContext hentry) hsame
  case restart => exact fun _ => h.of_sub rfl (fun _ hentry => absurd hentry List.not_mem_nil) hsame

/-- A released row was locked by an intent past its expiry height. -/
theorem exists_expired_of_spentByAny {accountId : Int} {localHeight : Nat}
    {intents : List OutgoingTransactionIntent} {transactions : List TransactionRow}
    {row : NoteRow}
    (h : row.spentByAny (expiredOutgoingTxids accountId localHeight intents transactions) = true) :
    ∃ intent ∈ intents, intent.Expired accountId localHeight transactions ∧
      ∃ txid ∈ txidHexCandidates intent.txid, row.spentTxid = some txid := by
  unfold NoteRecord.spentByAny at h
  split at h
  · rename_i txid htxid
    have hmem := List.contains_iff_mem.mp (Bool.and_eq_true_iff.mp h).2
    obtain ⟨intent, hintent, hcandidate⟩ := List.mem_flatMap.mp hmem
    obtain ⟨hstored, hexpired⟩ := List.mem_filter.mp hintent
    exact ⟨intent, hstored, OutgoingRun.expired_iff.mp hexpired, txid, hcandidate, htxid⟩
  · cases h

theorem ExpiryInvariant.releases (h : s.ExpiryInvariant) (event : SendEvent) :
    s.ReleasesUnminable event := by
  match event with
  | .chain (.release accountId true) =>
    intro row hrow row' hrow' hid hchanged tx htx hspent
    obtain ⟨old, hold, rfl⟩ := List.mem_map.mp hrow'
    have hsame : old = row := by
      refine AutoTable.row_eq_of_id hold hrow (Eq.trans ?_ hid)
      split <;> rfl
    subst hsame
    split at hchanged
    · rename_i hreleased
      simp only [Bool.and_eq_true] at hreleased
      obtain ⟨intent, hintent, hexpired, txid, hcandidate, htxid⟩ :=
        exists_expired_of_spentByAny hreleased.2
      have hnamed : tx.txid ∈ txidHexCandidates intent.txid := by
        rcases hspent with hspent | hspent
        · rw [Option.some.inj (hspent.symm.trans htxid)]
          exact hcandidate
        · rw [← List.reverse_reverse tx.txid, Option.some.inj (hspent.symm.trans htxid)]
          exact reverse_mem_txidHexCandidates hcandidate
      exact (h.intents intent hintent tx htx hnamed).trans_lt hexpired.expiryHeight_lt
    · exact absurd rfl hchanged
  | .chain (.release accountId false) =>
    intro row hrow row' hrow' hid hchanged
    exact absurd (AutoTable.row_eq_of_id hrow' hrow hid) hchanged
  | .chain (.write _) | .chain .ensureNullifierCache | .chain (.truncate _ _)
  | .chain (.initializeLegacyExpiries _ _) | .chain (.spendability _ _) | .build _ | .sign ..
  | .broadcast .. | .sendP2sh .. | .dropContext _ | .restart => exact trivial

end Steps

end SendRun

/-- **The recorded expiry height is not below the one in the transaction**, in every state of a
run that signs in time, and no release gives back the notes of a transaction that can still be
mined. -/
theorem recorded_expiry_not_below (s : SendRun) (hsigned : s.signed = [])
    (hcontexts : s.contexts = []) (events : List SendEvent)
    (htime : Runs.EachStep SendRun.step SendRun.SignsInTime s events) :
    Runs.Throughout SendRun.step SendRun.RecordsExpiry s events ∧
      Runs.EachStep SendRun.step SendRun.ReleasesUnminable s events := by
  have hstart : s.ExpiryInvariant := by
    refine ⟨SendRun.Ids.of_nothing hsigned hcontexts, ?_, ?_⟩
    · intro intent _ tx htx
      rw [hsigned] at htx
      cases htx
    · rw [hcontexts]
      exact List.forall_mem_nil _
  have hpassed := Runs.run_invariant (P := SendRun.ExpiryInvariant)
    (fun _ _ hs hevent => hs.step hevent) hstart htime
  refine ⟨fun done hdone => (hpassed done hdone).intents, ?_⟩
  intro done event rest hsplit
  exact (hpassed done ⟨event :: rest, hsplit.symm⟩).releases event

/-! ## One send -/

/-- A wallet before its first send. -/
def freshSend : SendRun where
  run := freshRun
  contexts := []
  pendingChanges := []
  built := []
  signed := []
  accepted := []

/-- The wallet is scanned up to a height, with its notes validated. -/
def readyAt (height : Nat) : List SendEvent :=
  [.chain (.write (.saveSyncState [⟨1, height, [], [], 0, [], []⟩] ⟨"t", height, 0, none⟩)),
    .chain (.spendability .empty { SpendabilityStateRow.default "t" with
      spendable := true
      rescanRequired := false
      targetHeight := height
      anchorHeight := height
      validatedAnchorHeight := height })]

/-- A payment out of a note. -/
def payment (expiryHeight : Nat) : PendingTx :=
  ⟨"payment", 50000, 10000, 30000, 90000, 1, expiryHeight⟩

theorem length_replicate_seven : (List.replicate 32 (7 : UInt8)).length = 32 := rfl

def paymentSignature : Signature where
  txid := List.replicate 32 7
  txid_length := length_replicate_seven
  spentNotes := [⟨(List.replicate 32 3, 0, .ironwood), some (List.replicate 32 5)⟩]

/-- A note is found at height 100 and the payment is built; it is signed and broadcast at another
height. At height 141 comes a release. -/
def payAndExpire (signedAt : Nat) : List SendEvent :=
  [.chain (.write (storeNotes [incomingNote 100 3 (List.replicate 32 5)] [blockOf 100 3 []]))] ++
    readyAt 100 ++ [.build (payment 0)] ++
    readyAt signedAt ++
    [.sign (payment 140) paymentSignature 1 0,
      .broadcast (paymentSignature.tx signedAt) 0 .none none] ++
    readyAt 141 ++ [.chain (.release 1 true)]

/-- Signed at the height it was built at, the payment expires with its intent. -/
theorem recorded_expiry_not_below_same_height :
    Runs.Throughout SendRun.step SendRun.RecordsExpiry freshSend (payAndExpire 100) ∧
      Runs.EachStep SendRun.step SendRun.ReleasesUnminable freshSend (payAndExpire 100) := by
  refine recorded_expiry_not_below freshSend rfl rfl _ ?_
  iterate 6 refine Runs.eachStep_cons.mpr ⟨trivial, ?_⟩
  refine Runs.eachStep_cons.mpr ⟨?_, ?_⟩
  · intro targetHeight htarget _
    have hheight : targetHeight = 100 :=
      (Option.some.inj (htarget.symm.trans (by decide +kernel)))
    rw [hheight]
    exact le_refl 140
  iterate 3 refine Runs.eachStep_cons.mpr ⟨trivial, ?_⟩
  exact Runs.eachStep_cons.mpr ⟨trivial, Runs.eachStep_nil⟩

/-- Signed after twenty more blocks, it can be mined up to height 160. The intent says 140, and
the release at height 141 gives the note back. -/
theorem payment_released_before_expiry :
    ¬ Runs.Throughout SendRun.step SendRun.RecordsExpiry freshSend (payAndExpire 120) ∧
      ¬ Runs.EachStep SendRun.step SendRun.ReleasesUnminable freshSend (payAndExpire 120) := by
  have hrecorded : ∃ intent ∈ (Runs.run SendRun.step freshSend (payAndExpire 120)).run.intents,
      ∃ tx ∈ (Runs.run SendRun.step freshSend (payAndExpire 120)).signed,
        tx.txid ∈ txidHexCandidates intent.txid ∧ ¬ tx.expiryHeight ≤ intent.expiryHeight := by
    decide +kernel
  have hreleased : ∃ row ∈ (Runs.run SendRun.step freshSend
        ((payAndExpire 120).dropLast)).db.notes.rows,
      ∃ row' ∈ (Runs.run SendRun.step freshSend (payAndExpire 120)).db.notes.rows,
        row'.id = row.id ∧ row' ≠ row ∧
          ∃ tx ∈ (Runs.run SendRun.step freshSend ((payAndExpire 120).dropLast)).signed,
            row.spentTxid = some tx.txid ∧ ¬ tx.expiryHeight <
              (Runs.run SendRun.step freshSend ((payAndExpire 120).dropLast)).run.localHeight := by
    decide +kernel
  constructor
  · intro hall
    obtain ⟨intent, hintent, tx, htx, hcandidate, hlow⟩ := hrecorded
    exact hlow (hall _ (List.prefix_refl _) intent hintent tx htx hcandidate)
  · intro hall
    obtain ⟨row, hrow, row', hrow', hid, hchanged, tx, htx, hspent, hlow⟩ := hreleased
    exact hlow (hall _ (.chain (.release 1 true)) [] rfl row hrow row' hrow' hid hchanged tx htx
      (Or.inl hspent))

end StashiWallet
