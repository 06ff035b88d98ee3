import StashiWallet.SendIntentRuns
import StashiWallet.SpentOutputs

/-!
# Inputs of accepted transactions

`record_accepted_broadcast` marks the inputs of a transaction with the nullifiers of the context
that `sign_tx_internal` left in memory. If the context is gone (it is too old, there were too many
of them, the process started again) or was never made (`qortal_send_p2sh` makes none), nothing is
marked, and the next transaction may select the same notes.

Beside the state a run remembers the inputs that are taken: those of the accepted transactions,
until the transaction expires or a truncation undoes the spend.
-/

namespace StashiWallet

namespace SendRun

/-- The scanned chain has passed the expiry height of the transaction without it. -/
def Expired (s : SendRun) (tx : SignedTx) : Prop :=
  tx.expiryHeight < s.run.localHeight ∧ ¬ s.Mined tx.txid

instance (s : SendRun) (tx : SignedTx) : Decidable (s.Expired tx) :=
  inferInstanceAs (Decidable (_ ∧ ¬ ∃ mined ∈ s.run.scanned, _))

/-- The marks of a broadcast are made, and a row of the input is among them: its nullifier is the
one the transaction was signed with. -/
def MarksInput (s : SendRun) (accountId : Int) (tx : SignedTx) (note : SelectedSpendNoteRef)
    (faults : RecordFaults) (stopped : Option Nat) : Prop :=
  (s.contexts.lookup tx.txidHex).isSome = true ∧ faults.marksMade stopped = true ∧
    ∃ row ∈ s.db.notes.rows, row.accountId = accountId ∧ row.outputKey = note.outputKey ∧
      row.nullifier.length = 32 ∧ note.nullifier = some row.nullifier

end SendRun

def SendEvent.isTruncation : SendEvent → Bool
  | .chain (.truncate _ _) => true
  | _ => false

/-- A wallet that sends, and the inputs that are taken. -/
structure SelectionRun where
  send : SendRun
  taken : List (SignedTx × OutputKey)

def SignedTx.inputs (tx : SignedTx) : List (SignedTx × OutputKey) :=
  tx.spentNotes.map (fun note => (tx, note.outputKey))

namespace SelectionRun

section

variable (accountOf : Bytes → Int)

/-- An event undoes the spend of an output: the output had a spent row, and a truncation leaves
none. -/
def Undoes (before after : SendRun) (event : SendEvent) (input : SignedTx × OutputKey) : Prop :=
  event.isTruncation = true ∧ before.db.notes.HasSpent (accountOf input.1.txid) input.2 ∧
    ¬ after.db.notes.HasSpent (accountOf input.1.txid) input.2

instance (before after : SendRun) (event : SendEvent) (input : SignedTx × OutputKey) :
    Decidable (Undoes accountOf before after event input) :=
  inferInstanceAs (Decidable (_ ∧ _ ∧ _))

/-- A step of a run; `accountOf` is the account that a transaction spends notes of, by its id. -/
def step (s : SelectionRun) (event : SendEvent) : SelectionRun :=
  let after := s.send.step event
  let accepted := after.accepted.drop s.send.accepted.length
  { send := after
    taken := (s.taken ++ accepted.flatMap SignedTx.inputs).filter (fun input =>
      ¬ after.Expired input.1 ∧ ¬ Undoes accountOf s.send after event input) }

/-- The queries return no input that is taken. -/
def Withholds (s : SelectionRun) : Prop :=
  ∀ input ∈ s.taken, s.send.db.Withholds (accountOf input.1.txid) input.2

/-- What is asked of the events: a signature is for the account it is said to be for; a broadcast
marks its inputs, unless a row of them is spent already; and the intents that a release gives up
are not recorded as spending an input that is taken. -/
def KeepsInputs (s : SelectionRun) : SendEvent → Prop
  | .sign pending signature accountId _ => s.send.signTargetHeight.isSome = true →
      pending ∈ s.send.built → s.send.NewTxid signature.txid →
        accountId = accountOf signature.txid
  | .broadcast tx _ faults stopped => tx ∈ s.send.signed → ¬ s.send.Expired tx →
      ∀ note ∈ tx.spentNotes,
        s.send.db.notes.HasSpent (accountOf tx.txid) note.outputKey ∨
          s.send.MarksInput (accountOf tx.txid) tx note faults stopped
  | .sendP2sh signature _ _ _ => s.send.p2shTargetHeight.isSome = true →
      s.send.NewTxid signature.txid → ∀ note ∈ signature.spentNotes,
        s.send.db.notes.HasSpent (accountOf signature.txid) note.outputKey
  | .chain (.release accountId true) => ∀ input ∈ s.taken, accountOf input.1.txid = accountId →
      ∀ row ∈ s.send.db.notes.rows, row.accountId = accountId → row.outputKey = input.2 →
        row.spentByAny (expiredOutgoingTxids accountId s.send.run.localHeight s.send.run.intents
          s.send.db.transactions) = false
  | _ => True

end

end SelectionRun

/-! ## Events that take no spend back -/

namespace SendRun

variable {s : SendRun} {accountId : Int} {key : OutputKey}

/-- The event does not take the spend of the output back. -/
def KeepsSpent (s : SendRun) (accountId : Int) (key : OutputKey) : SendEvent → Prop
  | .chain (.truncate _ _) => False
  | .chain (.release account true) => account = accountId → ∀ row ∈ s.db.notes.rows,
      row.accountId = accountId → row.outputKey = key →
        row.spentByAny (expiredOutgoingTxids account s.run.localHeight s.run.intents
          s.db.transactions) = false
  | _ => True

/-- A release keeps a spend that is not by an expired transaction. -/
theorem release_hasSpent {account : Int} (h : s.db.notes.HasSpent accountId key)
    (hkeeps : s.KeepsSpent accountId key (.chain (.release account true))) :
    (s.step (.chain (.release account true))).db.notes.HasSpent accountId key := by
  obtain ⟨row, hrow, haccount, hkey, hspent⟩ := h
  refine ⟨row, List.mem_map.mpr ⟨row, hrow, if_neg ?_⟩, haccount, hkey, hspent⟩
  intro hreleased
  simp only [Bool.and_eq_true, beq_iff_eq] at hreleased
  obtain ⟨⟨hown, -⟩, hexpired⟩ := hreleased
  have hkept := hkeeps (hown.symm.trans haccount) row hrow haccount hkey
  exact Bool.false_ne_true (hkept.symm.trans hexpired)

/-- A call that follows the chain keeps a spent row, if it is no truncation and no release. -/
theorem chain_hasSpent {run : OutgoingRun} {call : ChainCall}
    (h : run.engine.db.notes.HasSpent accountId key)
    (htruncate : ∀ now height, call ≠ .truncate now height)
    (hrelease : ∀ account, call ≠ .release account true) :
    (call.step run).engine.db.notes.HasSpent accountId key := by
  cases call with
  | write write =>
    cases write with
    | updateCommitmentTrees trees => exact h
    | persistNotes input => exact persistNotes_hasSpent h input
    | applySpends input => exact applySpends_hasSpent h input
    | createCheckpoint trees => exact h
    | saveSyncState blocks flush =>
      have hnotes := (saveSyncState_write run.engine blocks flush).1
      show Notes.HasSpent _ _ (run.engine.write (.saveSyncState blocks flush)).db.notes
      rw [hnotes]
      exact h
  | ensureNullifierCache =>
    show Notes.HasSpent _ _ run.engine.ensureNullifierCache.db.notes
    rw [run.engine.ensureNullifierCache_db]
    exact h
  | truncate now height => exact absurd rfl (htruncate now height)
  | initializeLegacyExpiries accountId transactionLifetime => exact h
  | release account done =>
    cases done with
    | false => exact h
    | true => exact absurd rfl (hrelease account)
  | spendability scanQueue row => exact h

/-- Recording a broadcast takes no spend back. -/
theorem recordAcceptedBroadcast_hasSpent (h : s.db.notes.HasSpent accountId key) (txid : Bytes)
    (now : Nat) (faults : RecordFaults) (stopped : Option Nat) :
    (s.recordAcceptedBroadcast txid now faults stopped).db.notes.HasSpent accountId key := by
  refine recordAcceptedBroadcast_keeps
    (P := fun after => after.db.notes.HasSpent accountId key) h ?_ (fun _ hafter => hafter)
  intro context _ write hwrite after hafter
  rcases BroadcastContext.mem_writesMade hwrite with rfl | rfl | rfl
  · exact hafter.spendByNullifier _ _
  · exact hafter
  · exact hafter

/-- An event that does not take the spend of an output back keeps a spent row of it. -/
theorem step_hasSpent (h : s.db.notes.HasSpent accountId key) {event : SendEvent}
    (hkeeps : s.KeepsSpent accountId key event) :
    (s.step event).db.notes.HasSpent accountId key := by
  refine step_keeps (P := fun after => after.db.notes.HasSpent accountId key) h ?chain
    (fun _ => h) (fun _ _ _ _ _ _ _ _ _ => h) ?broadcast ?sendP2sh (fun _ => h) (fun _ => h)
  case chain =>
    rintro call rfl
    by_cases hrelease : ∃ account, call = .release account true
    · obtain ⟨account, rfl⟩ := hrelease
      exact release_hasSpent h hkeeps
    · refine @chain_hasSpent accountId key s.run call h ?_ (fun account heq =>
        hrelease ⟨account, heq⟩)
      rintro now height rfl
      exact hkeeps
  case broadcast =>
    intro tx now faults stopped _ _
    exact @recordAcceptedBroadcast_hasSpent { s with accepted := s.accepted ++ [tx] } accountId
      key h tx.txid now faults stopped
  case sendP2sh =>
    intro signature now faults stopped targetHeight _ _ _
    exact @recordAcceptedBroadcast_hasSpent { s with
      signed := s.signed ++ [signature.p2shTx targetHeight]
      accepted := s.accepted ++ [signature.p2shTx targetHeight] } accountId key h signature.txid now
        faults stopped

/-! ## Marks -/

/-- The marks are the first write. -/
theorem lockNotes_mem_writesMade {context : BroadcastContext} (txid : Bytes) (now : Nat)
    {faults : RecordFaults} {stopped : Option Nat} (h : faults.marksMade stopped = true) :
    SendWrite.lockNotes context.accountId (context.entries txid) ∈
      context.writesMade txid now faults stopped := by
  unfold RecordFaults.marksMade at h
  simp only [Bool.and_eq_true, Bool.not_eq_true', bne_iff_ne] at h
  obtain ⟨⟨hopen, hmark⟩, hstopped⟩ := h
  unfold BroadcastContext.writesMade BroadcastContext.recordWrites
  rw [hopen, hmark]
  cases stopped with
  | none => exact List.mem_cons_self
  | some count =>
    cases count with
    | zero => exact absurd rfl hstopped
    | succ count => exact List.mem_cons_self

/-- A row of the account with the output and the nullifier. -/
def HasInput (accountId : Int) (key : OutputKey) (nullifier : Bytes) (s : SendRun) : Prop :=
  ∃ row ∈ s.db.notes.rows, row.accountId = accountId ∧ row.outputKey = key ∧
    row.nullifier.length = 32 ∧ row.nullifier = nullifier

/-- Marking changes neither the output nor the nullifier of a row. -/
theorem hasInput_lockNotes {nullifier : Bytes} (account : Int) (entries : List (Bytes × Bytes)) :
    HasInput accountId key nullifier (s.apply (.lockNotes account entries)) ↔
      HasInput accountId key nullifier s := by
  have hsame : ∀ row : NoteRow, ∀ p : Bool, ∀ txid : Bytes,
      (if p = true then row.spendBy txid else row).accountId = row.accountId ∧
        (if p = true then row.spendBy txid else row).outputKey = row.outputKey ∧
        (if p = true then row.spendBy txid else row).nullifier = row.nullifier := by
    intro row p txid
    cases p with
    | true => exact ⟨rfl, rfl, rfl⟩
    | false => exact ⟨rfl, rfl, rfl⟩
  constructor
  · rintro ⟨marked, hmarked, haccount, hkey, hlength, hnullifier⟩
    obtain ⟨row, hrow, rfl⟩ := List.mem_map.mp hmarked
    obtain ⟨hrowAccount, hrowKey, hrowNullifier⟩ := hsame row _ _
    rw [hrowAccount] at haccount
    rw [hrowKey] at hkey
    rw [hrowNullifier] at hlength hnullifier
    exact ⟨row, hrow, haccount, hkey, hlength, hnullifier⟩
  · rintro ⟨row, hrow, haccount, hkey, hlength, hnullifier⟩
    refine ⟨_, List.mem_map_of_mem hrow, ?_⟩
    obtain ⟨hrowAccount, hrowKey, hrowNullifier⟩ := hsame row _ _
    rw [hrowAccount, hrowKey, hrowNullifier]
    exact ⟨haccount, hkey, hlength, hnullifier⟩

/-- **A broadcast whose marks are made leaves a spent row of each input** it has the nullifier
of. -/
theorem recordAcceptedBroadcast_marks {txid : Bytes} {now : Nat} {faults : RecordFaults}
    {stopped : Option Nat} {context : BroadcastContext} {nullifier : Bytes}
    (hcontext : s.contexts.lookup (hexEncode txid) = some context)
    (hmade : faults.marksMade stopped = true)
    (hnullifier : nullifier ∈ context.spentNullifiers)
    (hinput : HasInput context.accountId key nullifier s) :
    (s.recordAcceptedBroadcast txid now faults stopped).db.notes.HasSpent context.accountId key := by
  have hkept : HasInput context.accountId key nullifier
      (s.recordAcceptedBroadcast txid now faults stopped) := by
    refine recordAcceptedBroadcast_keeps (P := HasInput context.accountId key nullifier) hinput ?_
      (fun _ hafter => hafter)
    intro other _ write hwrite after hafter
    rcases BroadcastContext.mem_writesMade hwrite with rfl | rfl | rfl
    · exact (hasInput_lockNotes _ _).mpr hafter
    · exact hafter
    · exact hafter
  have hmarks : ∀ after : SendRun,
      HasInput context.accountId key nullifier
        (after.apply (.lockNotes context.accountId (context.entries txid))) →
      (after.apply (.lockNotes context.accountId (context.entries txid))).db.notes.HasSpent
        context.accountId key := by
    intro after hafter
    obtain ⟨row, hrow, haccount, hkey, hlength, hsame⟩ := (hasInput_lockNotes _ _).mp hafter
    rw [← hkey]
    refine Notes.hasSpent_of_marked hrow haccount hlength ?_
    refine List.mem_map.mpr ⟨(nullifier, txid), ?_, hsame.symm⟩
    refine List.mem_map_of_mem (List.mem_filter.mpr ⟨hnullifier, ?_⟩)
    rw [← hsame]
    exact beq_iff_eq.mpr hlength
  refine @recordAcceptedBroadcast_establishes s (fun after =>
    HasInput context.accountId key nullifier after →
      after.db.notes.HasSpent context.accountId key) txid now faults stopped context hcontext _
    (lockNotes_mem_writesMade txid now hmade) hmarks ?_ (fun _ hafter => hafter) hkept
  intro other hother after hafter
  rcases BroadcastContext.mem_writesMade hother with rfl | rfl | rfl
  · exact hmarks after
  · exact hafter
  · exact hafter

end SendRun

namespace SendRun

variable {s : SendRun} {accountOf : Bytes → Int}

/-- An event accepts at most one transaction: one that was signed, or the one it makes. -/
theorem step_accepted (s : SendRun) (event : SendEvent) :
    (s.step event).accepted = s.accepted ∨ ∃ tx, (s.step event).accepted = s.accepted ++ [tx] ∧
      ((∃ now faults stopped, event = .broadcast tx now faults stopped ∧ tx ∈ s.signed) ∨
        ∃ signature now faults stopped targetHeight,
          event = .sendP2sh signature now faults stopped ∧ s.p2shTargetHeight = some targetHeight ∧
            s.NewTxid signature.txid ∧ tx = signature.p2shTx targetHeight) := by
  unfold SendRun.step
  cases event with
  | chain call => exact Or.inl rfl
  | build pending =>
    dsimp only
    split
    · exact Or.inl rfl
    · exact Or.inl rfl
  | sign pending signature accountId now =>
    dsimp only
    split
    · exact Or.inl rfl
    · split
      · exact Or.inl rfl
      · exact Or.inl rfl
  | broadcast tx now faults stopped =>
    dsimp only
    split
    · rename_i htx
      refine Or.inr ⟨tx, recordAcceptedBroadcast_frame _ _ _ _ |>.2, Or.inl ⟨now, faults, stopped,
        rfl, htx⟩⟩
    · exact Or.inl rfl
  | sendP2sh signature now faults stopped =>
    dsimp only
    split
    · exact Or.inl rfl
    · rename_i targetHeight htarget
      split
      · rename_i hnew
        exact Or.inr ⟨signature.p2shTx targetHeight, recordAcceptedBroadcast_frame _ _ _ _ |>.2,
          Or.inr ⟨signature, now, faults, stopped, targetHeight, rfl, htarget, hnew, rfl⟩⟩
      · exact Or.inl rfl
  | dropContext txid => exact Or.inl rfl
  | restart => exact Or.inl rfl

/-- Recording a broadcast moves neither the scanned height nor what was scanned. -/
theorem expired_recordAcceptedBroadcast {tx : SignedTx} (h : s.Expired tx) (txid : Bytes) (now : Nat)
    (faults : RecordFaults) (stopped : Option Nat) :
    (s.recordAcceptedBroadcast txid now faults stopped).Expired tx := by
  refine recordAcceptedBroadcast_keeps (P := fun after => after.Expired tx) h ?_
    (fun _ hafter => hafter)
  intro context _ write hwrite after hafter
  rcases BroadcastContext.mem_writesMade hwrite with rfl | rfl | rfl
  · exact hafter
  · exact hafter
  · exact hafter

/-! ## Contexts -/

/-- Each context is that of its transaction. -/
def ContextsOwn (accountOf : Bytes → Int) (s : SendRun) : Prop :=
  ∀ entry ∈ s.contexts, ∀ tx ∈ s.signed, entry.1 = tx.txidHex →
    entry.2.accountId = accountOf tx.txid ∧
      entry.2.spentNullifiers = tx.spentNotes.filterMap (fun note => note.nullifier)

variable (h : s.ContextsOwn accountOf)

include h

theorem ContextsOwn.of_sub {after : SendRun}
    (hcontexts : ∀ entry ∈ after.contexts, entry ∈ s.contexts) (hsigned : after.signed = s.signed) :
    after.ContextsOwn accountOf := by
  intro entry hentry tx htx
  rw [hsigned] at htx
  exact h entry (hcontexts entry hentry) tx htx

theorem ContextsOwn.recordAcceptedBroadcast (txid : Bytes) (now : Nat) (faults : RecordFaults)
    (stopped : Option Nat) :
    (s.recordAcceptedBroadcast txid now faults stopped).ContextsOwn accountOf := by
  refine recordAcceptedBroadcast_keeps (P := fun after => after.ContextsOwn accountOf) ?_ ?_ ?_
  · exact h.of_sub (fun _ hentry => mem_takeBroadcastContext hentry) rfl
  · intro context _ write hwrite after hafter
    rcases BroadcastContext.mem_writesMade hwrite with rfl | rfl | rfl
    · exact hafter
    · exact hafter
    · exact hafter
  · exact fun after hafter => hafter.of_sub nofun rfl

/-- A new transaction is signed, and its context may be stored. -/
theorem ContextsOwn.sign (hids : s.Ids) {tx : SignedTx} (hnew : s.NewTxid tx.txid)
    {contexts : BroadcastContexts}
    (hcontexts : ∀ entry ∈ contexts, entry ∈ s.contexts ∨ entry.1 = tx.txidHex ∧
      entry.2.accountId = accountOf tx.txid ∧
      entry.2.spentNullifiers = tx.spentNotes.filterMap (fun note => note.nullifier)) :
    ContextsOwn accountOf { s with signed := s.signed ++ [tx], contexts := contexts } := by
  intro entry hentry other hother hkey
  rcases List.mem_append.mp hother with hold | hsame
  · rcases hcontexts entry hentry with hstored | ⟨hown, -⟩
    · exact h entry hstored other hold hkey
    · exact absurd (hexEncode_injective (hkey.symm.trans hown)) (hnew.1 other hold).1
  · rw [List.mem_singleton.mp hsame] at hkey ⊢
    rcases hcontexts entry hentry with hstored | ⟨-, hown⟩
    · exact absurd hkey (hids.key_ne hnew hstored)
    · exact hown

/-- An event keeps the contexts those of their transactions, if a signature is for the account it
is said to be for. -/
theorem ContextsOwn.step (hids : s.Ids) {event : SendEvent}
    (hsign : ∀ pending signature accountId now, event = .sign pending signature accountId now →
      s.signTargetHeight.isSome = true → pending ∈ s.built → s.NewTxid signature.txid →
        accountId = accountOf signature.txid) : (s.step event).ContextsOwn accountOf := by
  refine step_keeps h (fun _ _ => h.of_sub (fun _ hentry => hentry) rfl)
    (fun _ => h.of_sub (fun _ hentry => hentry) rfl) ?sign ?broadcast ?sendP2sh
    (fun _ => h.of_sub (fun _ hentry => mem_takeBroadcastContext hentry) rfl)
    (fun _ => h.of_sub (fun _ hentry => absurd hentry List.not_mem_nil) rfl)
  case sign =>
    intro pending signature accountId now targetHeight hevent htarget hbuilt hnew
    refine @ContextsOwn.sign s accountOf h hids (signature.tx targetHeight) hnew _
      (fun entry hentry => ?_)
    rcases mem_storeBroadcastContext hentry with rfl | ⟨hold, -⟩
    · exact Or.inr ⟨rfl, hsign pending signature accountId now hevent (by rw [htarget]; rfl)
        hbuilt hnew, rfl⟩
    · exact Or.inl hold
  case broadcast =>
    intro tx now faults stopped _ _
    exact @ContextsOwn.recordAcceptedBroadcast { s with accepted := s.accepted ++ [tx] } accountOf
      h tx.txid now faults stopped
  case sendP2sh =>
    intro signature now faults stopped targetHeight _ _ hnew
    have hsigned := @ContextsOwn.sign s accountOf h hids (signature.p2shTx targetHeight) hnew
      s.contexts (fun entry hentry => Or.inl hentry)
    exact @ContextsOwn.recordAcceptedBroadcast { s with
      signed := s.signed ++ [signature.p2shTx targetHeight]
      accepted := s.accepted ++ [signature.p2shTx targetHeight] } accountOf hsigned signature.txid
        now faults stopped

end SendRun

namespace SelectionRun

variable {accountOf : Bytes → Int} {s : SelectionRun}

/-- Every input that is taken has a spent row. -/
structure Held (accountOf : Bytes → Int) (s : SelectionRun) : Prop where
  ids : s.send.Ids
  contexts : s.send.ContextsOwn accountOf
  taken : ∀ input ∈ s.taken, s.send.db.notes.HasSpent (accountOf input.1.txid) input.2

/-- An input of a transaction that an event accepts, and that has not expired, has a spent row. -/
theorem Held.accepted (h : s.Held accountOf) {event : SendEvent}
    (hkeeps : s.KeepsInputs accountOf event) {tx : SignedTx}
    (htx : tx ∈ (s.send.step event).accepted.drop s.send.accepted.length)
    (hcurrent : ¬ (s.send.step event).Expired tx) {note : SelectedSpendNoteRef}
    (hnote : note ∈ tx.spentNotes) :
    (s.send.step event).db.notes.HasSpent (accountOf tx.txid) note.outputKey := by
  rcases s.send.step_accepted event with hsame | ⟨other, hafter, hevent⟩
  · rw [hsame, List.drop_length] at htx
    cases htx
  · rw [hafter, List.drop_left, List.mem_singleton] at htx
    subst htx
    rcases hevent with ⟨now, faults, stopped, rfl, hsigned⟩ |
      ⟨signature, now, faults, stopped, targetHeight, rfl, htarget, hnew, rfl⟩
    · have hstep : s.send.step (.broadcast tx now faults stopped) = { s.send with
          accepted := s.send.accepted ++ [tx] }.recordAcceptedBroadcast tx.txid now faults
            stopped := if_pos hsigned
      have hunexpired : ¬ s.send.Expired tx := by
        intro hexpired
        rw [hstep] at hcurrent
        exact hcurrent (SendRun.expired_recordAcceptedBroadcast
          (s := { s.send with accepted := s.send.accepted ++ [tx] }) hexpired _ _ _ _)
      rcases hkeeps hsigned hunexpired note hnote with hspent | ⟨hcontext, hmade, row, hrow,
        haccount, hkey, hlength, hnullifier⟩
      · exact SendRun.step_hasSpent hspent trivial
      · obtain ⟨context, hcontext⟩ := Option.isSome_iff_exists.mp hcontext
        obtain ⟨hown, hnullifiers⟩ :=
          h.contexts _ (mem_of_lookup hcontext) tx hsigned rfl
        dsimp only at hown hnullifiers
        rw [hstep, ← hown]
        refine @SendRun.recordAcceptedBroadcast_marks { s.send with
          accepted := s.send.accepted ++ [tx] } note.outputKey tx.txid now faults stopped context
            row.nullifier hcontext hmade ?_ ⟨row, hrow, haccount.trans hown.symm, hkey, hlength,
              rfl⟩
        rw [hnullifiers]
        exact List.mem_filterMap.mpr ⟨note, hnote, hnullifier⟩
    · exact SendRun.step_hasSpent (hkeeps (by rw [htarget]; rfl) hnew note hnote) trivial

/-- An event that is no truncation takes no spend of a taken input back. -/
theorem KeepsInputs.keepsSpent {event : SendEvent} (hkeeps : s.KeepsInputs accountOf event)
    (hevent : event.isTruncation = false) {input : SignedTx × OutputKey} (hinput : input ∈ s.taken) :
    s.send.KeepsSpent (accountOf input.1.txid) input.2 event := by
  cases event with
  | chain call =>
    cases call with
    | truncate now height => cases hevent
    | release account done =>
      cases done with
      | true =>
        rintro rfl
        exact hkeeps input hinput rfl
      | false => trivial
    | write write => trivial
    | ensureNullifierCache => trivial
    | initializeLegacyExpiries accountId transactionLifetime => trivial
    | spendability scanQueue row => trivial
  | build pending => trivial
  | sign pending signature accountId now => trivial
  | broadcast tx now faults stopped => trivial
  | sendP2sh signature now faults stopped => trivial
  | dropContext txid => trivial
  | restart => trivial

/-- **The step lemma.** After an event that keeps its inputs, every input that is taken still has a
spent row. -/
theorem Held.step (h : s.Held accountOf) {event : SendEvent}
    (hkeeps : s.KeepsInputs accountOf event) : (s.step accountOf event).Held accountOf where
  ids := h.ids.step event
  contexts := by
    refine h.contexts.step h.ids ?_
    rintro pending signature accountId now rfl
    exact hkeeps
  taken := by
    intro input hinput
    obtain ⟨hmem, hstays⟩ := List.mem_filter.mp hinput
    obtain ⟨hcurrent, hdone⟩ := of_decide_eq_true hstays
    rcases List.mem_append.mp hmem with hold | hnew
    · have hspent := h.taken input hold
      cases hevent : event.isTruncation with
      | true =>
        by_contra hlost
        exact hdone ⟨hevent, hspent, hlost⟩
      | false => exact SendRun.step_hasSpent hspent (hkeeps.keepsSpent hevent hold)
    · obtain ⟨tx, htx, hin⟩ := List.mem_flatMap.mp hnew
      obtain ⟨note, hnote, rfl⟩ := List.mem_map.mp hin
      exact h.accepted hkeeps htx hcurrent hnote

end SelectionRun

/-- **No input of an accepted transaction is offered again**, in every state of a run whose
broadcasts mark their inputs. -/
theorem accepted_inputs_withheld (accountOf : Bytes → Int) (s : SelectionRun)
    (hsigned : s.send.signed = []) (hcontexts : s.send.contexts = []) (htaken : s.taken = [])
    (events : List SendEvent)
    (hkeeps : Runs.EachStep (SelectionRun.step accountOf) (SelectionRun.KeepsInputs accountOf) s
      events) :
    Runs.Throughout (SelectionRun.step accountOf) (SelectionRun.Withholds accountOf) s events := by
  have hstart : s.Held accountOf := by
    refine ⟨SendRun.Ids.of_nothing hsigned hcontexts, ?_, ?_⟩
    · unfold SendRun.ContextsOwn
      rw [hcontexts]
      exact List.forall_mem_nil _
    · rw [htaken]
      exact List.forall_mem_nil _
  have hpassed := Runs.run_invariant (P := SelectionRun.Held accountOf)
    (fun _ _ hs hevent => hs.step hevent) hstart hkeeps
  exact fun done hdone input hinput => ((hpassed done hdone).taken input hinput).withholds

/-- A wallet without inputs that are taken. -/
def freshSelection : SelectionRun where
  send := freshSend
  taken := []

/-- A note that can be selected is found at height 100. -/
def findSpendable : List SendEvent :=
  [.chain (.write (storeNotes [{ incomingNote 100 3 (List.replicate 32 5) with
      noteBytes := List.replicate 107 0
      position := some 5 }] [blockOf 100 3 []]))] ++ readyAt 100

theorem accepted_inputs_withheld_payment :
    Runs.Throughout (SelectionRun.step fun _ => 1) (SelectionRun.Withholds fun _ => 1)
      freshSelection (findSpendable ++ [.build (payment 0), .sign (payment 140) paymentSignature 1 0,
        .broadcast (paymentSignature.tx 100) 0 .none none]) := by
  refine accepted_inputs_withheld (fun _ => 1) freshSelection rfl rfl rfl _ ?_
  iterate 4 refine Runs.eachStep_cons.mpr ⟨trivial, ?_⟩
  refine Runs.eachStep_cons.mpr ⟨fun _ _ _ => rfl, ?_⟩
  refine Runs.eachStep_cons.mpr ⟨fun _ _ note hnote => Or.inr ?_, Runs.eachStep_nil⟩
  obtain rfl := List.mem_singleton.mp hnote
  refine ⟨?_, rfl, ?_⟩
  · decide +kernel
  · decide +kernel

/-- `qortal_send_p2sh` marks nothing: the next selection returns its input. -/
theorem p2sh_input_offered :
    ¬ Runs.Throughout (SelectionRun.step fun _ => 1) (SelectionRun.Withholds fun _ => 1)
      freshSelection (findSpendable ++ [.sendP2sh paymentSignature 0 .none none]) := by
  intro hall
  let after := Runs.run (SelectionRun.step fun _ => 1) freshSelection
    (findSpendable ++ [.sendP2sh paymentSignature 0 .none none])
  have htaken : (paymentSignature.p2shTx 100, (List.replicate 32 3, 0, NoteType.ironwood)) ∈
      after.taken := by
    decide +kernel
  have hunspent : ∀ row ∈ after.send.db.notes.getUnspentNotes 1,
      row.outputKey = (List.replicate 32 3, 0, NoteType.ironwood) := by
    decide +kernel
  have hoffered : @Notes.getUnspentSelectableNotesFiltered Unit
      ⟨fun _ => true, fun _ => true, fun _ => true, fun _ => true, fun _ _ => true, fun _ => true⟩
      1 none none after.send.db.notes ≠ [] := by
    decide +kernel
  obtain ⟨note, hnote⟩ := List.exists_mem_of_ne_nil _ hoffered
  obtain ⟨row, hrow, hother, -⟩ :=
    (hall _ (List.prefix_refl _) _ htaken).filtered Unit _ none none note hnote
  exact hother (hunspent row hrow)

end StashiWallet
