import StashiWallet.SendExpiryRuns
import StashiWallet.SpendingTxids

/-!
# Locked notes and intents

Marking the notes of an accepted transaction and storing its intent are two commits, and a note
is given back on account of an intent only. A note that is marked while the intent is missing
stays locked. It does not come to that in a run whose broadcasts store the intent whenever they
mark notes, and whose truncations leave no spend behind whose transaction they cut away.
-/

namespace StashiWallet

/-- A row or a spend kept aside of the account names the transaction, if the row is not above a
height. -/
def WalletDb.NamesSpender (db : WalletDb) (upTo : Option Nat) (accountId : Int) (txid : Bytes) :
    Prop :=
  (∃ row ∈ db.notes.rows, row.accountId = accountId ∧ row.spentTxid = some txid ∧
      ∀ height ∈ upTo, row.height ≤ (height : Int)) ∨
    ∃ row ∈ db.unlinkedSpends.rows, row.accountId = accountId ∧ row.spendingTxid = txid

/-- The marks of a broadcast are made. -/
def RecordFaults.marksMade (stopped : Option Nat) (faults : RecordFaults) : Bool :=
  !faults.openFails && !faults.markFails && stopped != some 0

/-- The intent of a broadcast is stored. It is the last write, after the marks, if they are made,
and the pending change. -/
def BroadcastContext.intentMade (faults : RecordFaults) (stopped : Option Nat)
    (context : BroadcastContext) : Bool :=
  !faults.openFails && context.intentStored faults &&
    stopped.all (fun count => (if faults.markFails then 1 else 2) < count)

namespace SendRun

/-- A scanned block contains the transaction. -/
def Mined (s : SendRun) (txid : Bytes) : Prop :=
  ∃ mined ∈ s.run.scanned, mined.2 = txid ∨ mined.2 = txid.reverse

/-- An intent of the account names the transaction. -/
def HasIntent (s : SendRun) (accountId : Int) (txid : Bytes) : Prop :=
  ∃ intent ∈ s.run.intents, intent.accountId = accountId ∧ txid ∈ txidHexCandidates intent.txid

/-- For a note that is spent by a transaction the wallet broadcast and no scanned block contains,
there is an intent, and when it has expired a release gives the note back. -/
def LocksHaveIntents (s : SendRun) : Prop :=
  ∀ row ∈ s.db.notes.rows, row.spent = true → ∀ tx ∈ s.accepted,
    row.spentTxid = some tx.txid ∨ row.spentTxid = some tx.txid.reverse → ¬ s.Mined tx.txid →
      ∃ intent ∈ s.run.intents, tx.txid ∈ txidHexCandidates intent.txid ∧
        (intent.expiryHeight ≠ 0 → intent.expiryHeight < s.run.localHeight →
          outgoingTransactionIsConfirmed intent.txid s.db.transactions = false →
            row.unspend ∈ (s.step (.chain (.release row.accountId true))).db.notes.rows)

/-! ## What is asked of the events -/

/-- What is recorded of a broadcast accounts for the notes that name its transaction: a scanned
block contains it; or every account that has named it has an intent or gets it, and the intent is
stored if notes are marked. -/
def AccountsForBroadcast (s : SendRun) (txid : Bytes) (faults : RecordFaults)
    (stopped : Option Nat) : Prop :=
  s.Mined txid ∨
    (∀ accountId, (s.db.NamesSpender none accountId txid ∨
        s.db.NamesSpender none accountId txid.reverse) → s.HasIntent accountId txid ∨
      ∃ context, s.contexts.lookup (hexEncode txid) = some context ∧
        context.accountId = accountId ∧ context.intentMade faults stopped = true) ∧
    ∀ context, s.contexts.lookup (hexEncode txid) = some context →
      faults.marksMade stopped = true →
      (∃ row ∈ s.db.notes.rows, row.accountId = context.accountId ∧ row.nullifier.length = 32 ∧
        row.nullifier ∈ context.spentNullifiers) →
        context.intentMade faults stopped = true

/-- What an event is asked. A truncation keeps no spend by a transaction of the wallet's that no
block up to its height contains, unless there is an intent. -/
def AccountsForLocks (s : SendRun) : SendEvent → Prop
  | .chain (.truncate _ height) => ∀ tx ∈ s.accepted, ∀ txid, txid = tx.txid ∨ txid = tx.txid.reverse →
      ∀ accountId, s.db.NamesSpender (some height) accountId txid →
        (∃ mined ∈ s.run.scanned, mined.1 ≤ height ∧ (mined.2 = tx.txid ∨ mined.2 = tx.txid.reverse)) ∨
          s.HasIntent accountId tx.txid ∨
          txid ∈ collectTransactionTxidsAboveHeight s.db.transactions height
  | .broadcast tx _ faults stopped => tx ∈ s.signed → s.AccountsForBroadcast tx.txid faults stopped
  | .sendP2sh signature _ faults stopped => s.p2shTargetHeight.isSome = true →
      s.NewTxid signature.txid → s.AccountsForBroadcast signature.txid faults stopped
  | _ => True

/-! ## The invariant -/

/-- A transaction of the wallet's with that id is in a scanned block, or the account has an
intent for it. -/
def Accounted (s : SendRun) (accountId : Int) (txid : Bytes) : Prop :=
  ∀ tx ∈ s.accepted, txid = tx.txid ∨ txid = tx.txid.reverse →
    s.Mined tx.txid ∨ s.HasIntent accountId tx.txid

structure LockInvariant (s : SendRun) : Prop extends Ids s where
  named : s.db.SpendsIn s.Accounted
  accepted : ∀ tx ∈ s.accepted, tx ∈ s.signed

section Steps

variable {s : SendRun}

theorem Accounted.mono {after : SendRun} (haccepted : after.accepted = s.accepted)
    (hmined : ∀ txid, s.Mined txid → after.Mined txid)
    (hintents : ∀ accountId txid, s.HasIntent accountId txid → after.HasIntent accountId txid)
    (accountId : Int) (txid : Bytes) (h : s.Accounted accountId txid) :
    after.Accounted accountId txid := by
  intro tx htx hnames
  rw [haccepted] at htx
  exact (h tx htx hnames).imp (hmined _) (hintents _ _)

/-- A write of a batch names transactions of its blocks. -/
theorem LockInvariant.write (h : s.LockInvariant) (write : DurableWrite) :
    (s.step (.chain (.write write))).db.SpendsIn (s.step (.chain (.write write))).Accounted := by
  let after := s.step (.chain (.write write))
  have hmono : ∀ accountId txid, s.Accounted accountId txid → after.Accounted accountId txid := by
    refine Accounted.mono rfl ?_ (fun _ _ hintent => hintent)
    rintro txid ⟨mined, hmined, hnames⟩
    exact ⟨mined, List.mem_append_left _ hmined, hnames⟩
  refine write_spendsIn (h.named.mono hmono) ?_
  intro mined hmined accountId tx _ hnames
  refine Or.inl ⟨mined, List.mem_append_right _ hmined, hnames⟩

/-- A truncation keeps names that are accounted for without what it cuts away. -/
theorem truncate_accounted {now : String} {height : Nat}
    (hkeeps : s.AccountsForLocks (.chain (.truncate now height))) (h : s.LockInvariant) :
    (s.step (.chain (.truncate now height))).db.SpendsIn
      (s.step (.chain (.truncate now height))).Accounted := by
  unfold SendRun.step ChainCall.step
  dsimp only
  unfold OutgoingRun.step
  dsimp only
  split
  · exact h.named
  · rename_i rolledBack hrollback
    obtain ⟨-, -, hdb, -⟩ := rollbackToCheckpoint_eq_ok hrollback
    show WalletDb.SpendsIn _ rolledBack.db
    rw [hdb]
    have haccounted : ∀ accountId txid, s.db.NamesSpender (some height) accountId txid →
        ¬ (txid.length = 32 ∧ txid ∈ collectTransactionTxidsAboveHeight s.db.transactions height) →
        ∀ tx ∈ s.accepted, txid = tx.txid ∨ txid = tx.txid.reverse →
          (∃ mined ∈ s.run.scanned.filter (fun entry => entry.1 ≤ height),
            mined.2 = tx.txid ∨ mined.2 = tx.txid.reverse) ∨ s.HasIntent accountId tx.txid := by
      intro accountId txid hnamed hkept tx htx hnames
      rcases hkeeps tx htx txid hnames accountId hnamed with ⟨mined, hmined, hlow, hsame⟩ |
        hintent | hcut
      · exact Or.inl ⟨mined, List.mem_filter.mpr ⟨hmined, decide_eq_true hlow⟩, hsame⟩
      · exact Or.inr hintent
      · refine absurd ⟨?_, hcut⟩ hkept
        rcases hnames with rfl | rfl
        · exact tx.txid_length
        · rw [List.length_reverse, tx.txid_length]
    refine truncated_spendsIn now ?_ ?_
    · intro row hrow hlow txid htxid hkept
      refine haccounted _ _ (Or.inl ⟨row, hrow, rfl, htxid, ?_⟩) hkept
      intro other hother
      obtain rfl := Option.some.inj hother
      exact hlow
    · intro row hrow hkept
      exact haccounted _ _ (Or.inr ⟨row, hrow, rfl, rfl⟩) hkept

theorem initializeLegacy_hasIntent {run : OutgoingRun} {accountId : Int} {transactionLifetime : Nat}
    {intent : OutgoingTransactionIntent} (hintent : intent ∈ run.intents) :
    ∃ after ∈ (run.step (.initializeLegacyExpiries accountId transactionLifetime)).intents,
      after.accountId = intent.accountId ∧ after.txid = intent.txid := by
  refine ⟨_, List.mem_map_of_mem hintent, ?_⟩
  split
  · exact ⟨rfl, rfl⟩
  · exact ⟨rfl, rfl⟩

/-- A call that follows the chain keeps what is named accounted for. -/
theorem chain_accounted (h : s.LockInvariant) {call : ChainCall}
    (hkeeps : s.AccountsForLocks (.chain call)) :
    (s.step (.chain call)).db.SpendsIn (s.step (.chain call)).Accounted := by
  cases call with
  | write write => exact h.write write
  | ensureNullifierCache =>
    have hdb : (s.step (.chain .ensureNullifierCache)).db = s.db :=
      s.run.engine.ensureNullifierCache_db
    rw [hdb]
    exact h.named
  | truncate now height => exact truncate_accounted hkeeps h
  | initializeLegacyExpiries accountId transactionLifetime =>
    refine h.named.mono (Accounted.mono rfl (fun _ hmined => hmined) ?_)
    rintro account txid ⟨intent, hintent, haccount, hcandidate⟩
    obtain ⟨after, hafter, hsame, htxid⟩ :=
      @initializeLegacy_hasIntent s.run accountId transactionLifetime intent hintent
    exact ⟨after, hafter, hsame.trans haccount, htxid ▸ hcandidate⟩
  | release accountId done =>
    cases done with
    | false => exact h.named
    | true => exact ⟨h.named.notes.unspendWhere _, h.named.unlinked⟩
  | spendability scanQueue row => exact ⟨h.named.notes, h.named.unlinked⟩

/-! ## Broadcasts -/

variable {faults : RecordFaults} {stopped : Option Nat} {context : BroadcastContext}

/-- The marks are made only if neither a fault nor the stop keeps them from it. -/
theorem marksMade_of_mem {txid : Bytes} {now : Nat} {accountId : Int}
    {entries : List (Bytes × Bytes)}
    (h : SendWrite.lockNotes accountId entries ∈ context.writesMade txid now faults stopped) :
    faults.marksMade stopped = true := by
  have hrecorded : SendWrite.lockNotes accountId entries ∈ context.recordWrites txid now faults ∧
      stopped ≠ some 0 := by
    unfold BroadcastContext.writesMade at h
    cases stopped with
    | none => exact ⟨h, nofun⟩
    | some count =>
      refine ⟨List.mem_of_mem_take h, ?_⟩
      rintro ⟨⟩
      cases h
  obtain ⟨hmem, hstopped⟩ := hrecorded
  have hfaults : faults.openFails = false ∧ faults.markFails = false := by
    unfold BroadcastContext.recordWrites at hmem
    split at hmem
    · cases hmem
    · rename_i hopen
      refine ⟨Bool.not_eq_true _ ▸ hopen, ?_⟩
      by_contra hmark
      rw [if_pos (Bool.not_eq_false _ ▸ hmark)] at hmem
      split at hmem
      · simp at hmem
      · simp at hmem
  unfold RecordFaults.marksMade
  rw [hfaults.1, hfaults.2]
  simpa using hstopped

/-- The intent is among the writes that are made. -/
theorem intent_mem_writesMade (txid : Bytes) (now : Nat)
    (h : context.intentMade faults stopped = true) :
    SendWrite.storeIntent (context.intent txid now) ∈
      context.writesMade txid now faults stopped := by
  unfold BroadcastContext.intentMade at h
  simp only [Bool.and_eq_true, Bool.not_eq_true'] at h
  obtain ⟨⟨hopen, hstored⟩, hstopped⟩ := h
  have hrecorded : SendWrite.storeIntent (context.intent txid now) ∈
      context.recordWrites txid now faults := by
    unfold BroadcastContext.recordWrites
    rw [hopen, hstored]
    exact List.mem_append_right _ (List.mem_singleton_self _)
  unfold BroadcastContext.writesMade
  cases stopped with
  | none => exact hrecorded
  | some count =>
    have hlength : (context.recordWrites txid now faults).length ≤ count := by
      simp only [Option.all_some, decide_eq_true_eq] at hstopped
      unfold BroadcastContext.recordWrites
      rw [hopen, hstored]
      cases hmark : faults.markFails with
      | true =>
        rw [hmark] at hstopped
        exact hstopped
      | false =>
        rw [hmark] at hstopped
        exact hstopped
    dsimp only
    rw [List.take_of_length_le hlength]
    exact hrecorded

theorem mem_storeIntent_self (intent : OutgoingTransactionIntent)
    (intents : List OutgoingTransactionIntent) (transactions : List TransactionRow) :
    intent ∈ (StashiWallet.storeIntent intent intents transactions).1 := by
  unfold StashiWallet.storeIntent
  dsimp only
  split
  · rename_i hany
    obtain ⟨stored, hstored, hsame⟩ := List.any_eq_true.mp hany
    exact List.mem_map.mpr ⟨stored, hstored, if_pos hsame⟩
  · exact List.mem_append_right _ (List.mem_singleton_self _)

/-- An intent with another id stays. -/
theorem mem_storeIntent_of_ne {intent other : OutgoingTransactionIntent}
    {intents : List OutgoingTransactionIntent} (transactions : List TransactionRow)
    (hother : other ∈ intents) (hne : other.txid ≠ intent.txid) :
    other ∈ (StashiWallet.storeIntent intent intents transactions).1 := by
  unfold StashiWallet.storeIntent
  dsimp only
  split
  · exact List.mem_map.mpr ⟨other, hother, if_neg (by simpa using hne)⟩
  · exact List.mem_append_left _ hother

/-- A write that is made establishes what it establishes, if the other writes keep it. -/
theorem recordAcceptedBroadcast_establishes {Q : SendRun → Prop} {txid : Bytes} {now : Nat}
    {faults : RecordFaults} {stopped : Option Nat} {context : BroadcastContext}
    (hcontext : s.contexts.lookup (hexEncode txid) = some context) {write : SendWrite}
    (hmade : write ∈ context.writesMade txid now faults stopped)
    (hwrite : ∀ s : SendRun, Q (s.apply write))
    (hkeeps : ∀ other ∈ context.writesMade txid now faults stopped,
      ∀ s : SendRun, Q s → Q (s.apply other))
    (hrestart : ∀ s : SendRun, Q s → Q s.restart) :
    Q (s.recordAcceptedBroadcast txid now faults stopped) := by
  have hfold : ∀ (writes : List SendWrite) (s : SendRun),
      (∀ other ∈ writes, ∀ s : SendRun, Q s → Q (s.apply other)) →
      write ∈ writes ∨ Q s → Q (writes.foldl apply s) := by
    intro writes
    induction writes with
    | nil => exact fun s _ hs => hs.resolve_left List.not_mem_nil
    | cons other rest ih =>
      intro s hkeeps hs
      obtain ⟨hother, hrest⟩ := List.forall_mem_cons.mp hkeeps
      refine ih _ hrest ?_
      rcases hs with hin | hs
      · rcases List.mem_cons.mp hin with rfl | hin
        · exact Or.inr (hwrite s)
        · exact Or.inl hin
      · exact Or.inr (hother s hs)
  unfold recordAcceptedBroadcast takeBroadcastContext
  dsimp only
  rw [hcontext]
  cases stopped with
  | none => exact hfold _ _ hkeeps (Or.inl hmade)
  | some count => exact hrestart _ (hfold _ _ hkeeps (Or.inl hmade))

/-- What the records of a broadcast name, compared with the state before: it was accounted for,
or the intent of the broadcast is made. -/
def NamedAfter (s : SendRun) (tx : SignedTx) (faults : RecordFaults) (stopped : Option Nat)
    (accountId : Int) (txid : Bytes) : Prop :=
  ∀ other ∈ s.accepted ++ [tx], txid = other.txid ∨ txid = other.txid.reverse →
    s.Mined other.txid ∨ s.HasIntent accountId other.txid ∨
      other = tx ∧ ∃ context, s.contexts.lookup (hexEncode tx.txid) = some context ∧
        context.accountId = accountId ∧ context.intentMade faults stopped = true

/-- What holds after every write that records a broadcast. -/
structure Recording (s : SendRun) (tx : SignedTx) (faults : RecordFaults) (stopped : Option Nat)
    (after : SendRun) : Prop where
  named : after.db.SpendsIn (s.NamedAfter tx faults stopped)
  accepted : after.accepted = s.accepted ++ [tx]
  signed : after.signed = s.signed
  scanned : after.run.scanned = s.run.scanned
  intents : ∀ intent ∈ s.run.intents, intent ∈ after.run.intents
  rows : ∀ row ∈ after.db.notes.rows, ∃ old ∈ s.db.notes.rows,
    old.accountId = row.accountId ∧ old.nullifier = row.nullifier

theorem recording_start (h : s.LockInvariant) {tx : SignedTx}
    (hrecords : s.AccountsForBroadcast tx.txid faults stopped) (contexts : BroadcastContexts) :
    s.Recording tx faults stopped { s with accepted := s.accepted ++ [tx], contexts := contexts }
    where
  named := by
    have hnamed : ∀ accountId txid, s.Accounted accountId txid →
        s.db.NamesSpender none accountId txid → s.NamedAfter tx faults stopped accountId txid := by
      intro accountId txid haccounted hnames other hother hsame
      rcases List.mem_append.mp hother with hold | hnew
      · exact (haccounted other hold hsame).imp_right Or.inl
      · rw [List.mem_singleton.mp hnew] at hsame ⊢
        rcases hrecords with hmined | ⟨haccounts, -⟩
        · exact Or.inl hmined
        · have hnames' : s.db.NamesSpender none accountId tx.txid ∨
              s.db.NamesSpender none accountId tx.txid.reverse := by
            rcases hsame with rfl | rfl
            · exact Or.inl hnames
            · exact Or.inr hnames
          exact Or.inr ((haccounts accountId hnames').imp_right (fun hmade => ⟨rfl, hmade⟩))
    refine ⟨fun row hrow txid htxid => ?_, fun row hrow => ?_⟩
    · exact hnamed _ _ (h.named.notes row hrow txid htxid)
        (Or.inl ⟨row, hrow, rfl, htxid, fun _ hnone => by cases hnone⟩)
    · exact hnamed _ _ (h.named.unlinked row hrow) (Or.inr ⟨row, hrow, rfl, rfl⟩)
  accepted := rfl
  signed := rfl
  scanned := rfl
  intents := fun _ hintent => hintent
  rows := fun row hrow => ⟨row, hrow, rfl, rfl⟩

variable {after : SendRun}

/-- The marks name the transaction of the broadcast, whose intent is made. -/
theorem Recording.lockNotes {tx : SignedTx} (hafter : s.Recording tx faults stopped after)
    (h : s.LockInvariant) (htx : tx ∈ s.signed)
    (hrecords : s.AccountsForBroadcast tx.txid faults stopped)
    (hcontext : s.contexts.lookup (hexEncode tx.txid) = some context)
    (hmarks : faults.marksMade stopped = true) :
    s.Recording tx faults stopped
      (after.apply (.lockNotes context.accountId (context.entries tx.txid))) where
  named := by
    refine ⟨hafter.named.notes.spendByNullifier ?_, hafter.named.unlinked⟩
    rintro entry hentry ⟨row, hrow, haccount, hnullifier, hlength⟩ other hother hsame
    obtain ⟨nullifier, hspent, rfl⟩ := List.mem_map.mp hentry
    have hsigned : other ∈ s.signed := by
      rcases List.mem_append.mp hother with hold | hnew
      · exact h.accepted other hold
      · exact List.mem_singleton.mp hnew ▸ htx
    obtain rfl := h.ids tx htx other hsigned hsame
    rcases hrecords with hmined | ⟨-, hmade⟩
    · exact Or.inl hmined
    · obtain ⟨old, hold, holdAccount, holdNullifier⟩ := hafter.rows row hrow
      refine Or.inr (Or.inr ⟨rfl, context, hcontext, rfl, hmade context hcontext hmarks
        ⟨old, hold, holdAccount.trans haccount, ?_, ?_⟩⟩)
      · rw [holdNullifier]
        exact hlength
      · rw [holdNullifier, hnullifier]
        exact List.mem_of_mem_filter hspent
  accepted := hafter.accepted
  signed := hafter.signed
  scanned := hafter.scanned
  intents := hafter.intents
  rows := by
    intro row hrow
    obtain ⟨marked, hmarked, rfl⟩ := List.mem_map.mp hrow
    obtain ⟨old, hold, haccount, hnullifier⟩ := hafter.rows marked hmarked
    refine ⟨old, hold, ?_⟩
    split
    · exact ⟨haccount, hnullifier⟩
    · exact ⟨haccount, hnullifier⟩

/-- Storing the intent replaces none, since none names the transaction yet. -/
theorem Recording.storeIntent {tx : SignedTx} (hafter : s.Recording tx faults stopped after)
    (h : s.LockInvariant) (htx : tx ∈ s.signed)
    (hcontext : s.contexts.lookup (hexEncode tx.txid) = some context) (now : Nat) :
    s.Recording tx faults stopped (after.apply (.storeIntent (context.intent tx.txid now))) where
  named := ⟨hafter.named.notes, hafter.named.unlinked⟩
  accepted := hafter.accepted
  signed := hafter.signed
  scanned := hafter.scanned
  intents := by
    intro intent hintent
    refine @mem_storeIntent_of_ne (context.intent tx.txid now) intent after.run.intents
      after.run.engine.db.transactions (hafter.intents intent hintent) (fun hsame => ?_)
    refine h.fresh _ (mem_of_lookup hcontext) intent hintent tx htx rfl ?_
    rw [hsame]
    exact mem_txidHexCandidates.mpr
      ⟨tx.txid, hexDecode_hexEncode tx.txid, tx.txid_length, Or.inl rfl⟩
  rows := hafter.rows

/-- Recording a broadcast keeps what is named accounted for. -/
theorem LockInvariant.recordAcceptedBroadcast (h : s.LockInvariant) {tx : SignedTx}
    (htx : tx ∈ s.signed) {now : Nat} {faults : RecordFaults} {stopped : Option Nat}
    (hrecords : s.AccountsForBroadcast tx.txid faults stopped) :
    LockInvariant ({ s with accepted := s.accepted ++ [tx] }.recordAcceptedBroadcast tx.txid now
      faults stopped) := by
  have haccepted : Ids { s with accepted := s.accepted ++ [tx] } :=
    h.toIds.of_sub rfl (fun _ hentry => hentry) (fun intent hintent => ⟨intent, hintent, rfl⟩)
  have hrecording := @recordAcceptedBroadcast_keeps (s.Recording tx faults stopped)
    { s with accepted := s.accepted ++ [tx] } tx.txid now faults stopped
    (recording_start h hrecords _) (by
      intro context hcontext write hwrite after hafter
      rcases BroadcastContext.mem_writesMade hwrite with rfl | rfl | rfl
      · exact hafter.lockNotes h htx hrecords hcontext (marksMade_of_mem hwrite)
      · exact ⟨hafter.named, hafter.accepted, hafter.signed, hafter.scanned, hafter.intents,
          hafter.rows⟩
      · exact hafter.storeIntent h htx hcontext now)
    (fun after hafter => ⟨hafter.named, hafter.accepted, hafter.signed, hafter.scanned,
      hafter.intents, hafter.rows⟩)
  refine ⟨haccepted.recordAcceptedBroadcast htx now faults stopped, ?_, ?_⟩
  · refine hrecording.named.mono (fun accountId txid hnamed other hother hsame => ?_)
    rw [hrecording.accepted] at hother
    rcases hnamed other hother hsame with ⟨mined, hmined, hnames⟩ |
      ⟨intent, hintent, hrest⟩ | ⟨rfl, context, hcontext, haccount, hmade⟩
    · exact Or.inl ⟨mined, hrecording.scanned ▸ hmined, hnames⟩
    · exact Or.inr ⟨intent, hrecording.intents intent hintent, hrest⟩
    · -- the intent is the last write, and no write takes it away
      have hstored := @recordAcceptedBroadcast_establishes
        { s with accepted := s.accepted ++ [other] }
        (fun after => context.intent other.txid now ∈ after.run.intents) other.txid now faults stopped
        context hcontext _ (intent_mem_writesMade other.txid now hmade)
        (fun after => mem_storeIntent_self _ after.run.intents after.run.engine.db.transactions) (by
          intro write hwrite after hin
          rcases BroadcastContext.mem_writesMade hwrite with rfl | rfl | rfl
          · exact hin
          · exact hin
          · exact mem_storeIntent_self _ after.run.intents after.run.engine.db.transactions)
        (fun _ hin => hin)
      exact Or.inr ⟨_, hstored, haccount, mem_txidHexCandidates.mpr
        ⟨other.txid, hexDecode_hexEncode other.txid, other.txid_length, Or.inl rfl⟩⟩
  · intro other hother
    rw [hrecording.accepted] at hother
    rw [hrecording.signed]
    rcases List.mem_append.mp hother with hold | hnew
    · exact h.accepted other hold
    · exact List.mem_singleton.mp hnew ▸ htx

/-! ## Runs -/

/-- Where nothing of what the invariant is about changes, it is kept. -/
theorem LockInvariant.of_same (h : s.LockInvariant) (hids : after.Ids)
    (hrun : after.run.intents = s.run.intents ∧ after.run.scanned = s.run.scanned ∧
      after.db.notes = s.db.notes ∧ after.db.unlinkedSpends = s.db.unlinkedSpends)
    (haccepted : after.accepted = s.accepted) (hsigned : ∀ tx ∈ s.signed, tx ∈ after.signed) :
    after.LockInvariant := by
  obtain ⟨hintents, hscanned, hnotes, hunlinked⟩ := hrun
  have hmono := @Accounted.mono s after haccepted
    (fun txid hmined => by
      unfold Mined
      rw [hscanned]
      exact hmined)
    (fun accountId txid hintent => by
      unfold HasIntent
      rw [hintents]
      exact hintent)
  refine ⟨hids, ⟨?_, ?_⟩, ?_⟩
  · rw [hnotes]
    exact (h.named.mono hmono).notes
  · rw [hunlinked]
    exact (h.named.mono hmono).unlinked
  · rw [haccepted]
    exact fun tx htx => hsigned tx (h.accepted tx htx)

/-- **The step lemma.** After an event that accounts for its locks, a note spent by a broadcast
still has an intent or a block with its transaction. -/
theorem LockInvariant.step (h : s.LockInvariant) {event : SendEvent}
    (hkeeps : s.AccountsForLocks event) : (s.step event).LockInvariant := by
  refine step_keeps (P := fun after => after.Ids → after.LockInvariant) (fun _ => h) ?chain ?build
    ?sign ?broadcast ?sendP2sh ?dropContext ?restart (h.toIds.step event)
  case chain =>
    rintro call rfl hids
    exact ⟨hids, chain_accounted h hkeeps, h.accepted⟩
  case build =>
    exact fun built hids => h.of_same hids ⟨rfl, rfl, rfl, rfl⟩ rfl (fun _ htx => htx)
  case sign =>
    intro pending signature accountId now targetHeight _ _ _ _ hids
    exact h.of_same hids ⟨rfl, rfl, rfl, rfl⟩ rfl (fun tx htx => List.mem_append_left _ htx)
  case broadcast =>
    rintro tx now faults stopped rfl htx -
    exact h.recordAcceptedBroadcast htx (hkeeps htx)
  case sendP2sh =>
    rintro signature now faults stopped targetHeight rfl htarget hnew -
    have hsignedIds := @Ids.sign s h.toIds (signature.p2shTx targetHeight) hnew s.contexts
      (fun entry hentry => Or.inl hentry)
    have hsigned : LockInvariant { s with signed := s.signed ++ [signature.p2shTx targetHeight] } :=
      h.of_same hsignedIds ⟨rfl, rfl, rfl, rfl⟩ rfl (fun tx htx => List.mem_append_left _ htx)
    have htx : signature.p2shTx targetHeight ∈ s.signed ++ [signature.p2shTx targetHeight] :=
      List.mem_append_right _ (List.mem_singleton_self _)
    have hrecords := hkeeps (by rw [htarget]; rfl) hnew
    exact hsigned.recordAcceptedBroadcast htx hrecords
  case dropContext =>
    exact fun txid hids => h.of_same hids ⟨rfl, rfl, rfl, rfl⟩ rfl (fun _ htx => htx)
  case restart => exact fun _ hids => h.of_same hids ⟨rfl, rfl, rfl, rfl⟩ rfl (fun _ htx => htx)

/-- What is locked has an intent, and a release after its expiry gives it back. -/
theorem LockInvariant.locksHaveIntents (h : s.LockInvariant) : s.LocksHaveIntents := by
  intro row hrow hspent tx htx hnames hunmined
  obtain ⟨txid, htxid, hsame⟩ : ∃ txid, row.spentTxid = some txid ∧
      (txid = tx.txid ∨ txid = tx.txid.reverse) := by
    rcases hnames with hnames | hnames
    · exact ⟨_, hnames, Or.inl rfl⟩
    · exact ⟨_, hnames, Or.inr rfl⟩
  obtain ⟨intent, hintent, haccount, hcandidate⟩ :=
    (h.named.notes row hrow txid htxid tx htx hsame).resolve_left hunmined
  refine ⟨intent, hintent, hcandidate, fun hheight hpassed hunconfirmed => ?_⟩
  have hexpired : txid ∈ expiredOutgoingTxids row.accountId s.run.localHeight s.run.intents
      s.db.transactions := by
    refine List.mem_flatMap.mpr ⟨intent, List.mem_filter.mpr ⟨hintent, ?_⟩, ?_⟩
    · simp [haccount, hheight, hpassed, hunconfirmed]
    · rcases hsame with rfl | rfl
      · exact hcandidate
      · exact reverse_mem_txidHexCandidates hcandidate
  have hlength : txid.length = 32 := by
    rcases hsame with rfl | rfl
    · exact tx.txid_length
    · rw [List.length_reverse, tx.txid_length]
  refine List.mem_map.mpr ⟨row, hrow, if_pos ?_⟩
  show (row.accountId == row.accountId && row.spent && row.spentByAny (expiredOutgoingTxids
    row.accountId s.run.localHeight s.run.intents s.db.transactions)) = true
  unfold NoteRecord.spentByAny
  rw [hspent, htxid]
  simpa [hlength] using hexpired

end Steps

end SendRun

/-- **A note locked by a broadcast has an intent**, in every state of a run whose broadcasts and
truncations account for the locks. -/
theorem locked_notes_have_intents (s : SendRun) (hsigned : s.signed = [])
    (hcontexts : s.contexts = []) (haccepted : s.accepted = []) (events : List SendEvent)
    (hkeeps : Runs.EachStep SendRun.step SendRun.AccountsForLocks s events) :
    Runs.Throughout SendRun.step SendRun.LocksHaveIntents s events := by
  have haccounted : ∀ accountId txid, s.Accounted accountId txid := by
    intro accountId txid tx htx
    rw [haccepted] at htx
    cases htx
  have hstart : s.LockInvariant := by
    refine ⟨SendRun.Ids.of_nothing hsigned hcontexts, ⟨?_, ?_⟩, ?_⟩
    · exact fun row _ txid _ => haccounted row.accountId txid
    · exact fun row _ => haccounted row.accountId row.spendingTxid
    · rw [haccepted]
      exact List.forall_mem_nil _
  have hpassed := Runs.run_invariant (P := SendRun.LockInvariant)
    (fun _ _ hs hevent => hs.step hevent) hstart hkeeps
  exact fun done hdone => (hpassed done hdone).locksHaveIntents

/-- The payment is signed and broadcast at height 100. -/
def payStopped (stopped : Option Nat) : List SendEvent :=
  [.chain (.write (storeNotes [incomingNote 100 3 (List.replicate 32 5)] [blockOf 100 3 []]))] ++
    readyAt 100 ++
    [.build (payment 0), .sign (payment 140) paymentSignature 1 0,
      .broadcast (paymentSignature.tx 100) 0 .none stopped]

theorem locked_notes_have_intents_recorded :
    Runs.Throughout SendRun.step SendRun.LocksHaveIntents freshSend (payStopped none) := by
  refine locked_notes_have_intents freshSend rfl rfl rfl _ ?_
  iterate 5 refine Runs.eachStep_cons.mpr ⟨trivial, ?_⟩
  refine Runs.eachStep_cons.mpr ⟨fun _ => Or.inr ⟨?_, ?_⟩, Runs.eachStep_nil⟩
  · -- nothing is spent before the broadcast
    intro accountId hnamed
    exfalso
    rcases hnamed with (⟨row, hrow, -, htxid, -⟩ | ⟨row, hrow, -, htxid⟩) |
      (⟨row, hrow, -, htxid, -⟩ | ⟨row, hrow, -, htxid⟩)
    all_goals
      revert row
      decide +kernel
  · intro context hcontext _ _
    refine (?_ : ∀ entry ∈ _, BroadcastContext.intentMade .none none entry.2 = true) _
      (mem_of_lookup hcontext)
    decide +kernel

/-- Stopped between the marks and the intent, the broadcast leaves the note locked for good. -/
theorem stopped_broadcast_locks :
    ¬ Runs.Throughout SendRun.step SendRun.LocksHaveIntents freshSend (payStopped (some 1)) := by
  intro hall
  have hlocked : ∃ row ∈ (Runs.run SendRun.step freshSend (payStopped (some 1))).db.notes.rows,
      row.spent = true ∧
      ∃ tx ∈ (Runs.run SendRun.step freshSend (payStopped (some 1))).accepted,
        row.spentTxid = some tx.txid ∧
        (∀ mined ∈ (Runs.run SendRun.step freshSend (payStopped (some 1))).run.scanned,
          ¬ (mined.2 = tx.txid ∨ mined.2 = tx.txid.reverse)) ∧
        (Runs.run SendRun.step freshSend (payStopped (some 1))).run.intents = [] := by
    decide +kernel
  obtain ⟨row, hrow, hspent, tx, htx, htxid, hunmined, hnone⟩ := hlocked
  obtain ⟨intent, hintent, -⟩ := hall _ (List.prefix_refl _) row hrow hspent tx htx (Or.inl htxid)
    (fun ⟨mined, hmined, hnames⟩ => hunmined mined hmined hnames)
  rw [hnone] at hintent
  cases hintent

end StashiWallet
