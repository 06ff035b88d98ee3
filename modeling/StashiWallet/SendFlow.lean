import StashiWallet.OutgoingExpiryRuns
import StashiWallet.SpendabilityStorage

/-!
# Sending: build, sign, broadcast

A send has three steps that the caller makes one after the other, with any progress of the sync
in between. `build_tx_internal` fixes the height at which the transaction is given up,
`sign_tx_internal` makes the transaction and remembers in memory what it spends, and after the
network has accepted it `record_accepted_broadcast` writes down that the notes are spent and
that a transaction is under way. `qortal_send_p2sh` signs and broadcasts in one call.

Which notes are selected, and the transaction that is made of them, are input here.
-/

namespace StashiWallet

/-! ## What is kept in memory -/

def TRANSACTION_EXPIRY_BLOCKS : Nat := 40

def BROADCAST_CONTEXT_TTL_MS : Nat := 30 * 60 * 1000

def BROADCAST_CONTEXT_MAX_ENTRIES : Nat := 64

def PENDING_CHANGE_TTL_MS : Nat := 30 * 60 * 1000

structure PendingTx where
  id : String
  totalAmount : Nat
  fee : Nat
  change : Nat
  inputTotal : Nat
  numInputs : Nat
  expiryHeight : Nat
deriving DecidableEq, Repr

structure SelectedSpendNoteRef where
  outputKey : OutputKey
  nullifier : Option Bytes
deriving DecidableEq, Repr

/-- `SignedTx`, with what its raw bytes contain. The id is in display order. -/
structure SignedTx where
  txid : Bytes
  txid_length : txid.length = 32
  spentNotes : List SelectedSpendNoteRef
  expiryHeight : Nat
deriving DecidableEq, Repr

def SignedTx.txidHex (tx : SignedTx) : String := hexEncode tx.txid

/-- `BroadcastContext`, of one wallet. -/
structure BroadcastContext where
  accountId : Int
  spentNullifiers : List Bytes
  sentAmount : Nat
  fee : Nat
  changeAmount : Nat
  expiryHeight : Nat
  createdAtMs : Nat
deriving DecidableEq, Repr

abbrev BroadcastContexts := List (String × BroadcastContext)

/-- One round of the loop that makes room. Of several contexts that are the oldest the first one
goes; the source leaves that to its hash map. -/
def BroadcastContexts.removeOldest (contexts : BroadcastContexts) : BroadcastContexts :=
  match contexts.argmin (fun entry => entry.2.createdAtMs) with
  | none => contexts
  | some oldest => contexts.filter (fun entry => entry.1 != oldest.1)

def storeBroadcastContext (now : Nat) (txid : String) (context : BroadcastContext)
    (contexts : BroadcastContexts) : BroadcastContexts :=
  let kept := contexts.filter (fun entry => now - entry.2.createdAtMs ≤ BROADCAST_CONTEXT_TTL_MS)
  let stored := (txid, context) :: kept.filter (fun entry => entry.1 != txid)
  BroadcastContexts.removeOldest^[stored.length - BROADCAST_CONTEXT_MAX_ENTRIES] stored

def takeBroadcastContext (txid : String) (contexts : BroadcastContexts) :
    Option BroadcastContext × BroadcastContexts :=
  (contexts.lookup txid, contexts.filter (fun entry => entry.1 != txid))

structure PendingChangeEntry where
  txid : String
  changeAmount : Nat
  broadcastAtMs : Nat
deriving DecidableEq, Repr

/-- `add_pending_change`, for an id that was validated and put in lower case. -/
def addPendingChange (now : Nat) (txid : String) (changeAmount : Nat)
    (entries : List PendingChangeEntry) : List PendingChangeEntry :=
  if changeAmount = 0 then entries
  else
    let kept := entries.filter (fun entry => now - entry.broadcastAtMs ≤ PENDING_CHANGE_TTL_MS)
    if kept.any (fun entry => entry.txid == txid) then
      kept.map (fun entry =>
        if entry.txid == txid then ⟨txid, changeAmount, now⟩ else entry)
    else kept ++ [⟨txid, changeAmount, now⟩]

/-! ## The state of a wallet that sends -/

/-- The engine with the intents, and what the send flow keeps in memory; and of the past, the
transactions that were built, signed and accepted by the network. -/
structure SendRun where
  run : OutgoingRun
  contexts : BroadcastContexts
  pendingChanges : List PendingChangeEntry
  built : List PendingTx
  signed : List SignedTx
  accepted : List SignedTx

namespace SendRun

def db (s : SendRun) : WalletDb := s.run.engine.db

/-- What is left of the memory after the process starts again. -/
def restart (s : SendRun) : SendRun :=
  { s with
    run := { s.run with
      engine := { s.run.engine with
        nullifierCache := ∅
        nullifierCacheLoaded := false
        trackedWalletTxids := ∅ } }
    contexts := []
    pendingChanges := [] }

/-! ## Build and sign -/

/-- `require_spendability_ready`. -/
def spendabilityReady (s : SendRun) : Bool :=
  let state := s.db.spendabilityState
  let repairPending := state.repairQueued || s.db.scanQueue.nextFoundNoteRange.isSome
  let epochOk := state.anchorHeight != 0 && state.validatedAnchorHeight ≥ state.anchorHeight
  !state.rescanRequired && !repairPending && !state.syncInterrupted && epochOk

/-- The height at which `build_tx_internal` gives a transaction up. -/
def buildExpiryHeight (s : SendRun) : Nat :=
  min (s.run.localHeight % 2 ^ 32 + TRANSACTION_EXPIRY_BLOCKS) u32Max

/-- The target height `sign_tx_internal` signs for. -/
def signTargetHeight (s : SendRun) : Option Nat :=
  let targetHeight := s.db.spendabilityState.targetHeight
  if s.spendabilityReady && targetHeight != 0 && targetHeight ≤ u32Max then some targetHeight
  else none

/-- The target height `qortal_send_p2sh` signs for. -/
def p2shTargetHeight (s : SendRun) : Option Nat :=
  let targetHeight := s.db.spendabilityState.targetHeight
  if s.spendabilityReady && targetHeight ≤ u32Max then some targetHeight else none

/-- The id is new: it is a hash, so no other transaction has it, nor do the intents name it. -/
def NewTxid (s : SendRun) (txid : Bytes) : Prop :=
  (∀ tx ∈ s.signed, tx.txid ≠ txid ∧ tx.txid ≠ txid.reverse) ∧
    ∀ intent ∈ s.run.intents, txid ∉ txidHexCandidates intent.txid

instance (s : SendRun) (txid : Bytes) : Decidable (s.NewTxid txid) :=
  inferInstanceAs (Decidable (_ ∧ _))

end SendRun

/-- What signing adds to the pending transaction: the id of the transaction and the notes the
builder selected. -/
structure Signature where
  txid : Bytes
  txid_length : txid.length = 32
  spentNotes : List SelectedSpendNoteRef
deriving DecidableEq, Repr

/-- A payment. Its builder gives it up `TRANSACTION_EXPIRY_BLOCKS` after the target height. -/
def Signature.tx (signature : Signature) (targetHeight : Nat) : SignedTx where
  txid := signature.txid
  txid_length := signature.txid_length
  spentNotes := signature.spentNotes
  expiryHeight := targetHeight + TRANSACTION_EXPIRY_BLOCKS

/-- The funding transaction of a swap. Its builder gives it up after 20 blocks. -/
def Signature.p2shTx (signature : Signature) (targetHeight : Nat) : SignedTx :=
  { signature.tx targetHeight with expiryHeight := targetHeight + 20 }

/-- The context of a signed transaction. -/
def Signature.context (signature : Signature) (pending : PendingTx) (accountId : Int)
    (now : Nat) : BroadcastContext where
  accountId := accountId
  spentNullifiers := signature.spentNotes.filterMap (fun note => note.nullifier)
  sentAmount := pending.totalAmount
  fee := pending.fee
  changeAmount := pending.change
  expiryHeight := pending.expiryHeight
  createdAtMs := now

/-! ## After the broadcast -/

/-- A write of `record_accepted_broadcast`. -/
inductive SendWrite where
  | lockNotes (accountId : Int) (entries : List (Bytes × Bytes))
  | addPendingChange (now : Nat) (txid : String) (changeAmount : Nat)
  | storeIntent (intent : OutgoingTransactionIntent)

/-- What `record_accepted_broadcast` meets. -/
structure RecordFaults where
  openFails : Bool
  markFails : Bool
  intentFails : Bool
deriving DecidableEq, Repr

def RecordFaults.none : RecordFaults := ⟨false, false, false⟩

/-- The notes of a context, to be marked by the transaction. -/
def BroadcastContext.entries (txid : Bytes) (context : BroadcastContext) : List (Bytes × Bytes) :=
  (context.spentNullifiers.filter (fun nullifier => nullifier.length == 32)).map
    (fun nullifier => (nullifier, txid))

def BroadcastContext.intent (txid : Bytes) (now : Nat) (context : BroadcastContext) :
    OutgoingTransactionIntent where
  txid := hexEncode txid
  accountId := context.accountId
  amount := context.sentAmount
  fee := context.fee
  broadcastAt := min (now / 1000) i64Max
  expiryHeight := context.expiryHeight

/-- The intent is stored: the amounts fit and the writes go through. -/
def BroadcastContext.intentStored (faults : RecordFaults) (context : BroadcastContext) : Bool :=
  !faults.intentFails && context.sentAmount ≤ i64Max && context.fee ≤ i64Max

/-- The writes of `record_accepted_broadcast`, whose errors are logged only. -/
def BroadcastContext.recordWrites (txid : Bytes) (now : Nat) (faults : RecordFaults)
    (context : BroadcastContext) : List SendWrite :=
  if faults.openFails then []
  else
    (if faults.markFails then [] else [.lockNotes context.accountId (context.entries txid)]) ++
      [.addPendingChange now (hexEncode txid) context.changeAmount] ++
      (if context.intentStored faults then [.storeIntent (context.intent txid now)] else [])

/-- The writes that are made if the process stops after some of them. -/
def BroadcastContext.writesMade (txid : Bytes) (now : Nat) (faults : RecordFaults)
    (stopped : Option Nat) (context : BroadcastContext) : List SendWrite :=
  match stopped with
  | none => context.recordWrites txid now faults
  | some count => (context.recordWrites txid now faults).take count

namespace SendRun

def apply (s : SendRun) : SendWrite → SendRun
  | .lockNotes accountId entries => { s with run := s.run.step (.lockNotes accountId entries) }
  | .addPendingChange now txid changeAmount =>
    { s with
      pendingChanges := StashiWallet.addPendingChange now txid changeAmount s.pendingChanges }
  | .storeIntent intent => { s with run := s.run.step (.storeIntent intent) }

/-- `record_accepted_broadcast`, stopped after some of its writes if it is. -/
def recordAcceptedBroadcast (txid : Bytes) (now : Nat) (faults : RecordFaults)
    (stopped : Option Nat) (s : SendRun) : SendRun :=
  let (context, contexts) := takeBroadcastContext (hexEncode txid) s.contexts
  let taken := { s with contexts := contexts }
  let writes := (context.map (BroadcastContext.recordWrites txid now faults)).getD []
  match stopped with
  | none => writes.foldl apply taken
  | some count => ((writes.take count).foldl apply taken).restart

end SendRun

/-! ## Runs -/

/-- A call that follows the chain: the calls of a run without a send flow, other than those the
send flow makes; and whatever is stored about the spendability. -/
inductive ChainCall where
  | write (write : DurableWrite)
  | ensureNullifierCache
  | truncate (now : String) (height : Nat)
  | initializeLegacyExpiries (accountId : Int) (transactionLifetime : Nat)
  | release (accountId : Int) (done : Bool)
  | spendability (scanQueue : ScanQueue) (row : SpendabilityStateRow)

def ChainCall.step (run : OutgoingRun) : ChainCall → OutgoingRun
  | .write done => run.step (.write done)
  | .ensureNullifierCache => run.step .ensureNullifierCache
  | .truncate now height => run.step (.truncate now height)
  | .initializeLegacyExpiries accountId transactionLifetime =>
    run.step (.initializeLegacyExpiries accountId transactionLifetime)
  | .release accountId done => run.step (.release accountId done)
  | .spendability scanQueue row =>
    run.putDb { run.engine.db with scanQueue := scanQueue, spendabilityState := row }

/-- What happens to a wallet that sends. A context is dropped when it is too old or when other
wallets need the room. -/
inductive SendEvent where
  | chain (call : ChainCall)
  | build (pending : PendingTx)
  | sign (pending : PendingTx) (signature : Signature) (accountId : Int) (now : Nat)
  | broadcast (tx : SignedTx) (now : Nat) (faults : RecordFaults) (stopped : Option Nat)
  | sendP2sh (signature : Signature) (now : Nat) (faults : RecordFaults) (stopped : Option Nat)
  | dropContext (txid : String)
  | restart

/-- A step of a run. A call that is refused changes nothing. -/
def SendRun.step (s : SendRun) : SendEvent → SendRun
  | .chain call => { s with run := call.step s.run }
  | .build pending =>
    if s.spendabilityReady then
      { s with built := s.built ++ [{ pending with expiryHeight := s.buildExpiryHeight }] }
    else s
  | .sign pending signature accountId now =>
    match s.signTargetHeight with
    | none => s
    | some targetHeight =>
      if pending ∈ s.built ∧ s.NewTxid signature.txid then
        { s with
          signed := s.signed ++ [signature.tx targetHeight]
          contexts := storeBroadcastContext now (hexEncode signature.txid)
            (signature.context pending accountId now) s.contexts }
      else s
  | .broadcast tx now faults stopped =>
    if tx ∈ s.signed then
      { s with accepted := s.accepted ++ [tx] }.recordAcceptedBroadcast tx.txid now faults stopped
    else s
  | .sendP2sh signature now faults stopped =>
    match s.p2shTargetHeight with
    | none => s
    | some targetHeight =>
      if s.NewTxid signature.txid then
        { s with
          signed := s.signed ++ [signature.p2shTx targetHeight]
          accepted := s.accepted ++ [signature.p2shTx targetHeight] }.recordAcceptedBroadcast
            signature.txid now faults stopped
      else s
  | .dropContext txid => { s with contexts := (takeBroadcastContext txid s.contexts).2 }
  | .restart => s.restart

/-! ## What the calls on the memory keep -/

variable {contexts : BroadcastContexts} {context : BroadcastContext}

/-- A stored context is the new one or an older one of another transaction. -/
theorem mem_storeBroadcastContext {now : Nat} {txid : String} {entry : String × BroadcastContext}
    (h : entry ∈ storeBroadcastContext now txid context contexts) :
    entry = (txid, context) ∨ entry ∈ contexts ∧ entry.1 ≠ txid := by
  have hsub : ∀ (count : Nat) (stored : BroadcastContexts),
      entry ∈ BroadcastContexts.removeOldest^[count] stored → entry ∈ stored := by
    intro count
    induction count with
    | zero => exact fun _ hentry => hentry
    | succ count ih =>
      intro stored hentry
      have hround := ih _ hentry
      unfold BroadcastContexts.removeOldest at hround
      split at hround
      · exact hround
      · exact List.mem_of_mem_filter hround
  rcases List.mem_cons.mp (hsub _ _ h) with hnew | hold
  · exact Or.inl hnew
  · obtain ⟨hkept, hother⟩ := List.mem_filter.mp hold
    exact Or.inr ⟨List.mem_of_mem_filter hkept, bne_iff_ne.mp hother⟩

theorem mem_takeBroadcastContext {txid : String} {entry : String × BroadcastContext}
    (h : entry ∈ (takeBroadcastContext txid contexts).2) : entry ∈ contexts :=
  List.mem_of_mem_filter h

theorem mem_of_lookup {txid : String} (h : contexts.lookup txid = some context) :
    (txid, context) ∈ contexts := by
  obtain ⟨before, after, rfl, -⟩ := List.lookup_eq_some_iff.mp h
  exact List.mem_append_right _ List.mem_cons_self

/-- What the writes of `record_accepted_broadcast` keep that are made before it is stopped, and the
loss of memory, is kept by it. -/
theorem SendRun.recordAcceptedBroadcast_keeps {P : SendRun → Prop} {s : SendRun} {txid : Bytes}
    {now : Nat} {faults : RecordFaults} {stopped : Option Nat}
    (htaken : P { s with contexts := (takeBroadcastContext (hexEncode txid) s.contexts).2 })
    (hwrites : ∀ context, s.contexts.lookup (hexEncode txid) = some context →
      ∀ write ∈ context.writesMade txid now faults stopped, ∀ s, P s → P (s.apply write))
    (hrestart : ∀ s, P s → P s.restart) :
    P (s.recordAcceptedBroadcast txid now faults stopped) := by
  have hfold : ∀ (writes : List SendWrite) (s : SendRun),
      (∀ write ∈ writes, ∀ s, P s → P (s.apply write)) → P s → P (writes.foldl apply s) := by
    intro writes
    induction writes with
    | nil => exact fun _ _ hs => hs
    | cons write rest ih =>
      intro s hkeeps hs
      exact ih _ (fun other hother => hkeeps other (List.mem_cons_of_mem write hother))
        (hkeeps write List.mem_cons_self s hs)
  unfold recordAcceptedBroadcast takeBroadcastContext
  dsimp only
  cases hcontext : s.contexts.lookup (hexEncode txid) with
  | none =>
    cases stopped with
    | none => exact htaken
    | some count => exact hrestart _ (hfold _ _ (fun _ hwrite => by simp at hwrite) htaken)
  | some context =>
    have hmade := hwrites context hcontext
    cases stopped with
    | none => exact hfold _ _ hmade htaken
    | some count => exact hrestart _ (hfold _ _ hmade htaken)

/-- The writes of `record_accepted_broadcast`, one by one. -/
theorem BroadcastContext.mem_writesMade {txid : Bytes} {now : Nat} {faults : RecordFaults}
    {stopped : Option Nat} {write : SendWrite}
    (hmade : write ∈ context.writesMade txid now faults stopped) :
    write = .lockNotes context.accountId (context.entries txid) ∨
      write = .addPendingChange now (hexEncode txid) context.changeAmount ∨
      write = .storeIntent (context.intent txid now) := by
  have h : write ∈ context.recordWrites txid now faults := by
    unfold writesMade at hmade
    split at hmade
    · exact hmade
    · exact List.mem_of_mem_take hmade
  unfold recordWrites at h
  split at h
  · cases h
  · rcases List.mem_append.mp h with h | h
    · rcases List.mem_append.mp h with h | h
      · split at h
        · cases h
        · exact Or.inl (List.mem_singleton.mp h)
      · exact Or.inr (Or.inl (List.mem_singleton.mp h))
    · split at h
      · exact Or.inr (Or.inr (List.mem_singleton.mp h))
      · cases h

/-- Recording a broadcast changes neither what was signed nor what was accepted. -/
theorem SendRun.recordAcceptedBroadcast_frame {s : SendRun} (txid : Bytes) (now : Nat)
    (faults : RecordFaults) (stopped : Option Nat) :
    (s.recordAcceptedBroadcast txid now faults stopped).signed = s.signed ∧
      (s.recordAcceptedBroadcast txid now faults stopped).accepted = s.accepted := by
  refine recordAcceptedBroadcast_keeps
    (P := fun after => after.signed = s.signed ∧ after.accepted = s.accepted) ⟨rfl, rfl⟩ ?_
    (fun _ hafter => hafter)
  intro context _ write hwrite after hafter
  rcases BroadcastContext.mem_writesMade hwrite with rfl | rfl | rfl
  · exact hafter
  · exact hafter
  · exact hafter

/-! ## Which transaction is meant -/

/-- No call that follows the chain makes an intent up, changes whose it is or lowers its height. -/
theorem chain_intents (run : OutgoingRun) (call : ChainCall) :
    ∀ intent ∈ (call.step run).intents, ∃ stored ∈ run.intents,
      stored.txid = intent.txid ∧ stored.expiryHeight ≤ intent.expiryHeight := by
  have hsame : ∀ intent ∈ run.intents, ∃ stored ∈ run.intents,
      stored.txid = intent.txid ∧ stored.expiryHeight ≤ intent.expiryHeight :=
    fun intent hintent => ⟨intent, hintent, rfl, le_refl _⟩
  cases call with
  | write done => exact hsame
  | ensureNullifierCache => exact hsame
  | truncate now height =>
    have hintents : (run.step (.truncate now height)).intents = run.intents := by
      unfold OutgoingRun.step
      dsimp only
      split
      · rfl
      · rfl
    intro intent hintent
    have hstored : intent ∈ (run.step (.truncate now height)).intents := hintent
    rw [hintents] at hstored
    exact hsame intent hstored
  | initializeLegacyExpiries accountId transactionLifetime =>
    intro intent hintent
    obtain ⟨stored, hstored, rfl⟩ := List.mem_map.mp hintent
    refine ⟨stored, hstored, ?_⟩
    split
    · rename_i hlegacy
      simp only [Bool.and_eq_true, beq_iff_eq] at hlegacy
      exact ⟨rfl, hlegacy.1.2.le.trans (Nat.zero_le _)⟩
    · exact ⟨rfl, le_refl _⟩
  | release accountId done =>
    cases done with
    | true => exact hsame
    | false => exact hsame
  | spendability scanQueue row => exact hsame

namespace SendRun

/-- The signed transactions have different ids, in both byte orders; a context is of one of them,
and no intent names it yet. -/
structure Ids (s : SendRun) : Prop where
  ids : ∀ a ∈ s.signed, ∀ b ∈ s.signed, a.txid = b.txid ∨ a.txid = b.txid.reverse → a = b
  keys : ∀ entry ∈ s.contexts, ∃ tx ∈ s.signed, entry.1 = tx.txidHex
  fresh : ∀ entry ∈ s.contexts, ∀ intent ∈ s.run.intents, ∀ tx ∈ s.signed,
    entry.1 = tx.txidHex → tx.txid ∉ txidHexCandidates intent.txid

variable {s : SendRun}

theorem Ids.of_nothing (hsigned : s.signed = []) (hcontexts : s.contexts = []) : s.Ids where
  ids := by
    rw [hsigned]
    exact List.forall_mem_nil _
  keys := by
    rw [hcontexts]
    exact List.forall_mem_nil _
  fresh := by
    rw [hcontexts]
    exact List.forall_mem_nil _

/-- An intent with the id of a signed transaction names no other one. -/
theorem Ids.eq_of_named (h : s.Ids) {tx other : SignedTx} (htx : tx ∈ s.signed)
    (hother : other ∈ s.signed) (hnamed : other.txid ∈ txidHexCandidates (hexEncode tx.txid)) :
    other = tx := by
  obtain ⟨bytes, hbytes, -, hsame⟩ := mem_txidHexCandidates.mp hnamed
  have htxid : bytes = tx.txid :=
    Option.some.inj (hbytes.symm.trans (hexDecode_hexEncode tx.txid))
  rw [htxid] at hsame
  exact h.ids other hother tx htx hsame

theorem Ids.of_sub (h : s.Ids) {after : SendRun} (hsigned : after.signed = s.signed)
    (hcontexts : ∀ entry ∈ after.contexts, entry ∈ s.contexts)
    (hintents : ∀ intent ∈ after.run.intents, ∃ stored ∈ s.run.intents,
      stored.txid = intent.txid) : after.Ids where
  ids := by
    rw [hsigned]
    exact h.ids
  keys := by
    intro entry hentry
    rw [hsigned]
    exact h.keys entry (hcontexts entry hentry)
  fresh := by
    intro entry hentry intent hintent
    obtain ⟨stored, hstored, htxid⟩ := hintents intent hintent
    rw [hsigned, ← htxid]
    exact h.fresh entry (hcontexts entry hentry) stored hstored

/-- A new id is in no context. -/
theorem Ids.key_ne (h : s.Ids) {txid : Bytes} (hnew : s.NewTxid txid)
    {entry : String × BroadcastContext} (hentry : entry ∈ s.contexts) :
    entry.1 ≠ hexEncode txid := by
  obtain ⟨tx, htx, hkey⟩ := h.keys entry hentry
  rw [hkey]
  exact fun heq => (hnew.1 tx htx).1 (hexEncode_injective heq)

/-- A transaction with a new id is signed, and a context of it may be stored. -/
theorem Ids.sign (h : s.Ids) {tx : SignedTx} (hnew : s.NewTxid tx.txid)
    {contexts : BroadcastContexts}
    (hcontexts : ∀ entry ∈ contexts, entry ∈ s.contexts ∨ entry.1 = tx.txidHex) :
    Ids { s with signed := s.signed ++ [tx], contexts := contexts } where
  ids := by
    intro a ha b hb hsame
    rcases List.mem_append.mp ha with haold | hanew
    · rcases List.mem_append.mp hb with hbold | hbnew
      · exact h.ids a haold b hbold hsame
      · rw [List.mem_singleton.mp hbnew] at hsame
        exact absurd hsame (not_or.mpr (hnew.1 a haold))
    · rw [List.mem_singleton.mp hanew] at hsame ⊢
      rcases List.mem_append.mp hb with hbold | hbnew
      · refine absurd ?_ (not_or.mpr (hnew.1 b hbold))
        rcases hsame with hsame | hsame
        · exact Or.inl hsame.symm
        · refine Or.inr ?_
          rw [hsame, List.reverse_reverse]
      · exact (List.mem_singleton.mp hbnew).symm
  keys := by
    intro entry hentry
    rcases hcontexts entry hentry with hstored | hown
    · obtain ⟨other, hother, hkey⟩ := h.keys entry hstored
      exact ⟨other, List.mem_append_left _ hother, hkey⟩
    · exact ⟨tx, List.mem_append_right _ (List.mem_singleton_self tx), hown⟩
  fresh := by
    intro entry hentry intent hintent other hother hkey
    rcases List.mem_append.mp hother with hold | hsame
    · rcases hcontexts entry hentry with hstored | hown
      · exact h.fresh entry hstored intent hintent other hold hkey
      · exact absurd (hexEncode_injective (hkey.symm.trans hown)) (hnew.1 other hold).1
    · rw [List.mem_singleton.mp hsame]
      exact hnew.2 intent hintent

/-- Recording a broadcast takes the context out before an intent names its transaction. -/
theorem Ids.recordAcceptedBroadcast (h : s.Ids) {tx : SignedTx} (htx : tx ∈ s.signed) (now : Nat)
    (faults : RecordFaults) (stopped : Option Nat) :
    (s.recordAcceptedBroadcast tx.txid now faults stopped).Ids := by
  have hsame : ∀ (s : SendRun), ∀ intent ∈ s.run.intents, ∃ stored ∈ s.run.intents,
      stored.txid = intent.txid := fun _ intent hintent => ⟨intent, hintent, rfl⟩
  have hkeeps := @recordAcceptedBroadcast_keeps (fun after => after.Ids ∧
    after.signed = s.signed ∧ ∀ entry ∈ after.contexts, entry.1 ≠ tx.txidHex) s tx.txid now faults
    stopped
  refine (hkeeps ⟨?_, rfl, ?_⟩ ?_ ?_).1
  · exact h.of_sub rfl (fun _ hentry => mem_takeBroadcastContext hentry) (hsame s)
  · intro entry hentry
    exact bne_iff_ne.mp (List.mem_filter.mp hentry).2
  · rintro context hcontext write hwrite after ⟨hafter, hsigned, hother⟩
    rcases BroadcastContext.mem_writesMade hwrite with rfl | rfl | rfl
    · exact ⟨hafter.of_sub rfl (fun _ hentry => hentry) (hsame after), hsigned, hother⟩
    · exact ⟨hafter.of_sub rfl (fun _ hentry => hentry) (hsame after), hsigned, hother⟩
    · refine ⟨⟨hafter.ids, hafter.keys, ?_⟩, hsigned, hother⟩
      intro entry hentry intent hintent named hnamed hkey hcandidate
      rcases @OutgoingRun.mem_storeIntent (context.intent tx.txid now) intent after.run.intents
          after.run.engine.db.transactions hintent with rfl | hold
      · have htx' : tx ∈ after.signed := hsigned ▸ htx
        obtain rfl := hafter.eq_of_named htx' hnamed hcandidate
        exact hother entry hentry hkey
      · exact hafter.fresh entry hentry intent hold named hnamed hkey hcandidate
  · rintro after ⟨hafter, hsigned, -⟩
    exact ⟨hafter.of_sub rfl nofun (hsame after), hsigned, nofun⟩

/-- **The rule for one event.** An event that is refused changes nothing, so that what the others
make of the run decides. -/
theorem step_keeps {P : SendRun → Prop} {event : SendEvent} (h : P s)
    (chain : ∀ call, event = .chain call → P { s with run := call.step s.run })
    (build : ∀ built, P { s with built := built })
    (sign : ∀ pending signature accountId now targetHeight,
      event = .sign pending signature accountId now → s.signTargetHeight = some targetHeight →
      pending ∈ s.built → s.NewTxid signature.txid → P { s with
        signed := s.signed ++ [signature.tx targetHeight]
        contexts := storeBroadcastContext now (hexEncode signature.txid)
          (signature.context pending accountId now) s.contexts })
    (broadcast : ∀ tx now faults stopped, event = .broadcast tx now faults stopped →
      tx ∈ s.signed → P ({ s with accepted := s.accepted ++ [tx] }.recordAcceptedBroadcast tx.txid
        now faults stopped))
    (sendP2sh : ∀ signature now faults stopped targetHeight,
      event = .sendP2sh signature now faults stopped → s.p2shTargetHeight = some targetHeight →
      s.NewTxid signature.txid → P ({ s with
        signed := s.signed ++ [signature.p2shTx targetHeight]
        accepted := s.accepted ++ [signature.p2shTx targetHeight] }.recordAcceptedBroadcast
          signature.txid now faults stopped))
    (dropContext : ∀ txid, P { s with contexts := (takeBroadcastContext txid s.contexts).2 })
    (restart : event = .restart → P s.restart) : P (s.step event) := by
  unfold SendRun.step
  cases event with
  | chain call => exact chain call rfl
  | build pending =>
    dsimp only
    split
    · exact build _
    · exact h
  | sign pending signature accountId now =>
    dsimp only
    split
    · exact h
    · rename_i targetHeight htarget
      split
      · rename_i hgoes
        exact sign pending signature accountId now targetHeight rfl htarget hgoes.1 hgoes.2
      · exact h
  | broadcast tx now faults stopped =>
    dsimp only
    split
    · rename_i htx
      exact broadcast tx now faults stopped rfl htx
    · exact h
  | sendP2sh signature now faults stopped =>
    dsimp only
    split
    · exact h
    · rename_i targetHeight htarget
      split
      · rename_i hnew
        exact sendP2sh signature now faults stopped targetHeight rfl htarget hnew
      · exact h
  | dropContext txid => exact dropContext txid
  | restart => exact restart rfl

/-- Every event keeps the ids apart. -/
theorem Ids.step (h : s.Ids) (event : SendEvent) : (s.step event).Ids := by
  have hsame : ∀ intent ∈ s.run.intents, ∃ stored ∈ s.run.intents, stored.txid = intent.txid :=
    fun intent hintent => ⟨intent, hintent, rfl⟩
  refine step_keeps h ?chain ?build ?sign ?broadcast ?sendP2sh ?dropContext ?restart
  case chain =>
    intro call _
    refine h.of_sub rfl (fun _ hentry => hentry) (fun intent hintent => ?_)
    obtain ⟨stored, hstored, htxid, -⟩ := chain_intents s.run call intent hintent
    exact ⟨stored, hstored, htxid⟩
  case build => exact fun built => h.of_sub rfl (fun _ hentry => hentry) hsame
  case sign =>
    intro pending signature accountId now targetHeight _ _ _ hnew
    refine @Ids.sign s h (signature.tx targetHeight) hnew _ (fun entry hentry => ?_)
    rcases mem_storeBroadcastContext hentry with rfl | ⟨hold, -⟩
    · exact Or.inr rfl
    · exact Or.inl hold
  case broadcast =>
    intro tx now faults stopped _ htx
    have haccepted : Ids { s with accepted := s.accepted ++ [tx] } :=
      h.of_sub rfl (fun _ hentry => hentry) hsame
    exact haccepted.recordAcceptedBroadcast htx now faults stopped
  case sendP2sh =>
    intro signature now faults stopped targetHeight _ _ hnew
    have hsigned := @Ids.sign s h (signature.p2shTx targetHeight) hnew s.contexts
      (fun entry hentry => Or.inl hentry)
    have haccepted : Ids { s with
        signed := s.signed ++ [signature.p2shTx targetHeight]
        accepted := s.accepted ++ [signature.p2shTx targetHeight] } :=
      hsigned.of_sub rfl (fun _ hentry => hentry) hsame
    have htx : signature.p2shTx targetHeight ∈ s.signed ++ [signature.p2shTx targetHeight] :=
      List.mem_append_right _ (List.mem_singleton_self _)
    exact haccepted.recordAcceptedBroadcast htx now faults stopped
  case dropContext =>
    exact fun txid => h.of_sub rfl (fun _ hentry => mem_takeBroadcastContext hentry) hsame
  case restart => exact fun _ => h.of_sub rfl (fun _ hentry => absurd hentry List.not_mem_nil) hsame

end SendRun

end StashiWallet
