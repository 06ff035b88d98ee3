import StashiWallet.SendFlow
import StashiWallet.WitnessCheck

/-!
# The balance

`get_balance` adds up the unspent notes and, for the transactions the wallet has just broadcast,
the change that is not scanned yet. What it knows of the latter is in memory: an entry for each
broadcast, which a call drops when it sees an unspent note of the transaction, or after half an
hour.

Each balance that is computed is cached. While a sync or a rescan changes the notes a call answers
with the cached balance if there is one; otherwise it computes one, but does not reconcile the
outgoing transactions first. Whether such a sync is under way is decided by the handles of the sync
and is an input here. A wallet in decoy mode shows nothing.
-/

namespace StashiWallet

structure Balance where
  total : Nat
  spendable : Nat
  pending : Nat
deriving DecidableEq, Repr

/-- `checked_add` of two `u64`. -/
def checkedAdd (a b : Nat) : Except StorageError Nat :=
  if a + b ≤ u64Max then .ok (a + b) else .error (.storage "Balance overflow")

/-- The loop body of `calculate_balance`. -/
def addToBalance (confirmationThreshold : Nat) (sums : Nat × Nat) (note : NoteRow) :
    Except StorageError (Nat × Nat) :=
  if 0 < asU64 note.height ∧ asU64 note.height ≤ confirmationThreshold then
    (checkedAdd sums.1 (asU64 note.value)).map (fun spendable => (spendable, sums.2))
  else (checkedAdd sums.2 (asU64 note.value)).map (fun pending => (sums.1, pending))

/-- `calculate_balance`, of the unspent notes: the spendable, the pending and the total value. -/
def calculateBalance (currentHeight minDepth : Nat) (notes : List NoteRow) :
    Except StorageError (Nat × Nat × Nat) := do
  let (spendable, pending) ←
    notes.foldlM (addToBalance (currentHeight - (max minDepth 1 - 1))) (0, 0)
  let total ← checkedAdd spendable pending
  return (spendable, pending, total)

def txidHexVariantsFromBytes (txid : Bytes) : List String :=
  if txid.isEmpty then []
  else if txid.length ≠ 32 then [hexEncode txid]
  else if hexEncode txid.reverse = hexEncode txid then [hexEncode txid]
  else [hexEncode txid, hexEncode txid.reverse]

/-- The ids of some notes' transactions. -/
def knownTxids (notes : List NoteRow) : List String :=
  notes.flatMap (fun note => txidHexVariantsFromBytes note.txid)

/-- The entries `resolve_pending_change` keeps. -/
def unresolvedChanges (now : Nat) (known : List String) (entries : List PendingChangeEntry) :
    List PendingChangeEntry :=
  entries.filter (fun entry =>
    now - entry.broadcastAtMs ≤ PENDING_CHANGE_TTL_MS && !known.contains entry.txid)

/-- `resolve_pending_change`. The sum wraps around. -/
def resolvePendingChange (now : Nat) (known : List String) (entries : List PendingChangeEntry) :
    Nat × List PendingChangeEntry :=
  let kept := unresolvedChanges now known entries
  ((kept.map (·.changeAmount)).sum % 2 ^ 64, kept)

/-- What `get_balance` finds at its beginning: nothing special, a sync that is changing the notes,
or the decoy mode. -/
inductive BalanceMode where
  | live
  | mutating
  | decoy
deriving DecidableEq, Repr

namespace SendRun

/-- The state after `get_balance` has reconciled the outgoing transactions. -/
def reconciled (accountId : Int) (s : SendRun) : SendRun :=
  (s.step (.chain (.initializeLegacyExpiries accountId TRANSACTION_EXPIRY_BLOCKS))).step
    (.chain (.release accountId true))

/-- The state in which `get_balance` reads the notes. -/
def readFrom (accountId : Int) (mode : BalanceMode) (s : SendRun) : SendRun :=
  match mode with
  | .live => s.reconciled accountId
  | _ => s

/-- `get_balance` from the point where it opens the database. -/
def computeBalance (accountId : Int) (now : Nat) (mode : BalanceMode) (s : SendRun) :
    Except StorageError Balance × SendRun :=
  let read := s.readFrom accountId mode
  let unspent := read.db.notes.getUnspentNotes accountId
  match calculateBalance read.run.localHeight 1 unspent with
  | .error error => (.error error, read)
  | .ok (spendable, pending, total) =>
    let (unseenChange, pendingChanges) :=
      resolvePendingChange now (knownTxids unspent) read.pendingChanges
    (.ok {
      total := saturatingAdd total unseenChange
      spendable := spendable
      pending := saturatingAdd pending unseenChange },
      { read with pendingChanges := pendingChanges })

end SendRun

/-! ## Runs -/

/-- What a balance is to add up: the value of the unspent notes, and the broadcast transactions
of which no output has been scanned. -/
structure Holdings where
  value : Nat
  unseen : List SignedTx
deriving DecidableEq, Repr

/-- What is held, with the change of the broadcast transactions. The parameter is the change of a
transaction, by its id. -/
def Holdings.total (changeOf : String → Nat) (holdings : Holdings) : Nat :=
  holdings.value + (holdings.unseen.map (fun tx => changeOf tx.txidHex)).sum

/-- A wallet that sends, the transactions of which it has scanned an output, and the cached
balance. Beside it stands what was held when it was computed, of which the code knows nothing. -/
structure BalanceRun where
  send : SendRun
  outputs : List Bytes
  cached : Option (Balance × Holdings)

/-- The cache is cleared by the calls that change the keys, and at the beginning and end of
syncs. -/
inductive BalanceEvent where
  | send (event : SendEvent)
  | getBalance (accountId : Int) (now : Nat) (mode : BalanceMode)
  | clearCache

/-- The process starts again, and with it the memory is lost. -/
def SendEvent.restarts : SendEvent → Bool
  | .broadcast _ _ _ stopped => stopped.isSome
  | .sendP2sh _ _ _ stopped => stopped.isSome
  | .restart => true
  | _ => false

/-- The transactions whose outputs an event scans. -/
def SendEvent.outputs : SendEvent → List Bytes
  | .chain (.write (.persistNotes input)) => input.notes.map (·.txid)
  | _ => []

namespace BalanceRun

/-- An output of the transaction has been scanned. -/
def Seen (b : BalanceRun) (txid : Bytes) : Prop :=
  ∃ output ∈ b.outputs, output = txid ∨ output = txid.reverse

instance (b : BalanceRun) (txid : Bytes) : Decidable (b.Seen txid) :=
  inferInstanceAs (Decidable (∃ output ∈ b.outputs, _))

/-- What the wallet holds when a balance is asked for. -/
def holdings (accountId : Int) (mode : BalanceMode) (b : BalanceRun) : Holdings where
  value := (((b.send.readFrom accountId mode).db.notes.getUnspentNotes accountId).map
    (fun note => asU64 note.value)).sum
  unseen := b.send.accepted.dedup.filter (fun tx => ¬ b.Seen tx.txid)

/-- What `get_balance` answers without opening the database, and what was held when it was right:
the cached balance, or in decoy mode zero. -/
def answered (b : BalanceRun) : BalanceMode → Option (Balance × Holdings)
  | .live => none
  | .mutating => b.cached
  | .decoy => some (⟨0, 0, 0⟩, ⟨0, []⟩)

def getBalance (accountId : Int) (now : Nat) (mode : BalanceMode) (b : BalanceRun) :
    Except StorageError Balance × BalanceRun :=
  match b.answered mode with
  | some (balance, _) => (.ok balance, b)
  | none =>
    match b.send.computeBalance accountId now mode with
    | (.error error, send) => (.error error, { b with send := send })
    | (.ok balance, send) =>
      (.ok balance, { b with
        send := send
        cached := some (balance, b.holdings accountId mode) })

def step (b : BalanceRun) : BalanceEvent → BalanceRun
  | .send event =>
    { send := b.send.step event
      outputs := b.outputs ++ event.outputs
      cached := if event.restarts then none else b.cached }
  | .getBalance accountId now mode => (b.getBalance accountId now mode).2
  | .clearCache => { b with cached := none }

section

variable (changeOf : String → Nat)

/-- A total that is reported is the value of the unspent notes and the change of the broadcast
transactions of which no output has been scanned. -/
def ReportsTotal (b : BalanceRun) : BalanceEvent → Prop
  | .getBalance accountId now mode =>
    ∀ balance, (b.getBalance accountId now mode).1 = .ok balance →
      balance.total = (b.holdings accountId mode).total changeOf
  | _ => True

/-! ## What is asked of the events -/

/-- Nothing is forgotten of the broadcast transactions with change: their outputs are scanned. -/
def NothingPending (b : BalanceRun) : Prop :=
  ∀ tx ∈ b.send.accepted, changeOf tx.txidHex ≠ 0 → b.Seen tx.txid

/-- The entries of transactions without a scanned output are within their time. -/
def InTime (b : BalanceRun) (now : Nat) : Prop :=
  ∀ tx ∈ b.send.accepted, ¬ b.Seen tx.txid → ∀ entry ∈ b.send.pendingChanges,
    entry.txid = tx.txidHex → now - entry.broadcastAtMs ≤ PENDING_CHANGE_TTL_MS

/-- The change that is recorded of a broadcast. -/
def recordedChange (b : BalanceRun) (txid : Bytes) (faults : RecordFaults) : Option Nat :=
  if faults.openFails then none
  else (b.send.contexts.lookup (hexEncode txid)).map (·.changeAmount)

/-- The change of a broadcast is recorded as it is, and kept while it counts. -/
def Remembers (b : BalanceRun) : BalanceEvent → Prop
  | .send (.broadcast tx now faults stopped) => tx ∈ b.send.signed →
      b.InTime now ∧
      (stopped ≠ none → NothingPending changeOf b ∧ (changeOf tx.txidHex ≠ 0 → b.Seen tx.txid)) ∧
      match b.recordedChange tx.txid faults with
      | some change => change = changeOf tx.txidHex
      | none => tx ∈ b.send.accepted ∨ changeOf tx.txidHex = 0 ∨ b.Seen tx.txid
  | .send (.sendP2sh signature _ _ stopped) => b.send.p2shTargetHeight.isSome = true →
      b.send.NewTxid signature.txid →
      (stopped ≠ none → NothingPending changeOf b) ∧
        (changeOf (hexEncode signature.txid) = 0 ∨ b.Seen signature.txid)
  | .send .restart => NothingPending changeOf b
  | .getBalance accountId now mode => b.answered mode = none →
      b.InTime now ∧ (b.holdings accountId mode).value +
        (b.send.pendingChanges.map (·.changeAmount)).sum ≤ u64Max
  | _ => True

end

end BalanceRun

end StashiWallet
