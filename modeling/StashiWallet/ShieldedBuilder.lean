import Mathlib.Data.UInt
import StashiWallet.NoteSelection
import StashiWallet.SendFlow

/-!
# Building transactions

Every builder plans the amounts in the same way: it sums its outputs, selects notes that cover the
sum and the fee, and keeps the rest as change unless it is dust, which joins the fee. The sum of the
outputs is a plain sum of `u64`s, so it is taken modulo `2 ^ 64`.
-/

namespace StashiWallet

/-! ## Fees -/

def defaultFee : Nat := 10000

/-- `CHANGE_DUST_THRESHOLD`. -/
def changeDustThreshold : Nat := defaultFee

def minFee : Nat := defaultFee

def maxFee : Nat := 1000000

def calculateFee (_numSpends _numOutputs : Nat) (_hasMemo : Bool) : Except BuildError Nat :=
  if maxFee < defaultFee then
    .error (.feeCalculation s!"Calculated fee {defaultFee} exceeds maximum {maxFee}")
  else .ok defaultFee

def validateFee (fee : Nat) : Except BuildError Unit :=
  if fee < minFee then .error (.feeTooLow s!"Fee {fee} is below minimum {minFee}")
  else if maxFee < fee then .error (.feeTooHigh s!"Fee {fee} exceeds maximum {maxFee}")
  else .ok ()

structure EffectiveFeeAndChange where
  fee : Nat
  change : Nat
  dustAddedToFee : Nat
deriving DecidableEq, Repr

def applyDustPolicyAddToFee (baseFee change : Nat) : Except BuildError EffectiveFeeAndChange :=
  if change = 0 ∨ changeDustThreshold ≤ change then .ok ⟨baseFee, change, 0⟩
  else do
    let effectiveFee ← u64CheckedAdd (.amountOverflow
      s!"Fee overflow while applying dust policy: base_fee={baseFee} dust={change}") baseFee change
    if maxFee < effectiveFee then
      .error (.feeTooHigh
        s!"Effective fee {effectiveFee} exceeds maximum {maxFee} after dust adjustment")
    else .ok ⟨effectiveFee, 0, change⟩

/-! ## The plan of the amounts -/

/-- The amounts of a transaction, and the notes that pay for it. -/
structure AmountPlan (Path : Type) where
  notes : List (CandidateNote Path)
  inputValue : Nat
  outputValue : Nat
  fee : Nat
  change : Nat

/-- The fee before the notes are known. -/
def estimateFee (feeOverride : Option Nat) (numOutputs : Nat) (hasMemo : Bool) :
    Except BuildError Nat :=
  match feeOverride with
  | some fee => (validateFee fee).map fun _ => fee
  | none => calculateFee 2 numOutputs hasMemo

/-- The fee with the number of notes. -/
def recalculateFee (feeOverride : Option Nat) (numSpends numOutputs : Nat) (hasMemo : Bool) :
    Except BuildError Nat :=
  match feeOverride with
  | some fee => .ok fee
  | none => calculateFee numSpends numOutputs hasMemo

/-- `checked_sub` of what a transaction needs from what its notes have. -/
def checkedChange (totalInput totalOutput : Nat) : Except BuildError Nat :=
  if totalInput < totalOutput then
    .error (.insufficientFunds s!"Need {totalOutput} but have {totalInput}")
  else .ok (totalInput - totalOutput)

section Plan

variable {Path : Type}

/-- What the builders start with. -/
def planAmounts (amounts : List UInt64) (hasMemo : Bool) (feeOverride : Option Nat)
    (select : Nat → Nat → Except BuildError (SelectionResult Path)) :
    Except BuildError (AmountPlan Path) := do
  let outputSum := amounts.sum.toNat
  let estimatedFee ← estimateFee feeOverride amounts.length hasMemo
  let selection ← select outputSum estimatedFee
  let actualFee ← recalculateFee feeOverride selection.notes.length amounts.length hasMemo
  let totalOutput ← u64CheckedAdd (.amountOverflow "Output + fee overflow") outputSum actualFee
  let change ← checkedChange selection.totalValue totalOutput
  let effective ← applyDustPolicyAddToFee actualFee change
  .ok ⟨selection.notes, selection.totalValue, outputSum, effective.fee, effective.change⟩

/-- What is expected of a plan for the given amounts. -/
structure AmountPlan.Accounts (available : List (CandidateNote Path)) (amounts : List Nat)
    (plan : AmountPlan Path) : Prop where
  offered : ∀ note ∈ plan.notes, note ∈ available
  once : (available.map CandidateNote.outputKey).Nodup →
    (plan.notes.map CandidateNote.outputKey).Nodup
  inputs : plan.inputValue = (plan.notes.map (fun note => note.value)).sum
  outputs : plan.outputValue = amounts.sum
  balance : (plan.notes.map (fun note => note.value)).sum = amounts.sum + plan.change + plan.fee
  change : plan.change = 0 ∨ changeDustThreshold ≤ plan.change
  feeLow : minFee ≤ plan.fee
  feeHigh : plan.fee ≤ maxFee

theorem toNat_sum (amounts : List UInt64) :
    amounts.sum.toNat = (amounts.map UInt64.toNat).sum % 2 ^ 64 := by
  induction amounts with
  | nil => rfl
  | cons amount rest ih =>
    rw [List.sum_cons, UInt64.toNat_add, ih, List.map_cons, List.sum_cons, Nat.add_mod_mod]

theorem validateFee_eq_ok {fee : Nat} (h : validateFee fee = .ok ()) :
    minFee ≤ fee ∧ fee ≤ maxFee := by
  unfold validateFee at h
  by_cases hlow : fee < minFee
  · rw [if_pos hlow] at h
    cases h
  rw [if_neg hlow] at h
  by_cases hhigh : maxFee < fee
  · rw [if_pos hhigh] at h
    cases h
  · exact ⟨Nat.le_of_not_lt hlow, Nat.le_of_not_lt hhigh⟩

/-- The fee of the selection is valid, and it is the fee of the transaction. -/
theorem recalculateFee_of_estimateFee {feeOverride : Option Nat} {numOutputs : Nat} {hasMemo : Bool}
    {fee : Nat} (h : estimateFee feeOverride numOutputs hasMemo = .ok fee) :
    minFee ≤ fee ∧ fee ≤ maxFee ∧
      ∀ numSpends, recalculateFee feeOverride numSpends numOutputs hasMemo = .ok fee := by
  unfold estimateFee at h
  cases feeOverride with
  | none =>
    obtain rfl := Except.ok.inj h
    exact ⟨le_rfl, by decide, fun _ => rfl⟩
  | some override =>
    dsimp only at h
    cases hvalid : validateFee override with
    | error error =>
      rw [hvalid] at h
      cases h
    | ok _ =>
      rw [hvalid] at h
      obtain rfl := Except.ok.inj h
      obtain ⟨hlow, hhigh⟩ := validateFee_eq_ok hvalid
      exact ⟨hlow, hhigh, fun _ => rfl⟩

/-- The dust policy moves change to the fee, and leaves no dust. -/
theorem applyDustPolicy_spec {baseFee change : Nat} {effective : EffectiveFeeAndChange}
    (h : applyDustPolicyAddToFee baseFee change = .ok effective) (hfee : baseFee ≤ maxFee) :
    effective.change + effective.fee = change + baseFee ∧ baseFee ≤ effective.fee ∧
      effective.fee ≤ maxFee ∧
      (effective.change = 0 ∨ changeDustThreshold ≤ effective.change) := by
  unfold applyDustPolicyAddToFee at h
  by_cases hkept : change = 0 ∨ changeDustThreshold ≤ change
  · rw [if_pos hkept] at h
    obtain rfl := Except.ok.inj h
    exact ⟨rfl, le_rfl, hfee, hkept⟩
  · rw [if_neg hkept] at h
    obtain ⟨sum, hsum, h⟩ := bind_eq_ok h
    obtain ⟨-, rfl⟩ := NoteSelector.u64CheckedAdd_eq_ok.mp hsum
    by_cases hhigh : maxFee < baseFee + change
    · rw [if_pos hhigh] at h
      cases h
    · rw [if_neg hhigh] at h
      obtain rfl := Except.ok.inj h
      dsimp only
      omega

/-- What a plan is made of. -/
theorem planAmounts_eq_ok {amounts : List UInt64} {hasMemo : Bool} {feeOverride : Option Nat}
    {select : Nat → Nat → Except BuildError (SelectionResult Path)} {plan : AmountPlan Path}
    (h : planAmounts amounts hasMemo feeOverride select = .ok plan) :
    ∃ fee selection effective, minFee ≤ fee ∧ fee ≤ maxFee ∧
      select amounts.sum.toNat fee = .ok selection ∧
      amounts.sum.toNat + fee ≤ selection.totalValue ∧
      applyDustPolicyAddToFee fee (selection.totalValue - (amounts.sum.toNat + fee)) =
        .ok effective ∧
      plan = ⟨selection.notes, selection.totalValue, amounts.sum.toNat, effective.fee,
        effective.change⟩ := by
  unfold planAmounts at h
  dsimp only at h
  obtain ⟨fee, hfee, h⟩ := bind_eq_ok h
  obtain ⟨hlow, hhigh, hrecalculate⟩ := recalculateFee_of_estimateFee hfee
  obtain ⟨selection, hselection, h⟩ := bind_eq_ok h
  rw [hrecalculate] at h
  obtain ⟨_, hactual, h⟩ := bind_eq_ok h
  obtain rfl := Except.ok.inj hactual
  obtain ⟨needed, hneeded, h⟩ := bind_eq_ok h
  obtain ⟨-, rfl⟩ := NoteSelector.u64CheckedAdd_eq_ok.mp hneeded
  obtain ⟨change, hchange, h⟩ := bind_eq_ok h
  obtain ⟨effective, heffective, h⟩ := bind_eq_ok h
  obtain rfl := Except.ok.inj h
  unfold checkedChange at hchange
  by_cases hshort : selection.totalValue < amounts.sum.toNat + fee
  · rw [if_pos hshort] at hchange
    cases hchange
  · rw [if_neg hshort] at hchange
    obtain rfl := Except.ok.inj hchange
    exact ⟨fee, selection, effective, hlow, hhigh, hselection, Nat.le_of_not_lt hshort, heffective,
      rfl⟩

/-- A plan meets what is expected of it unless the sum of its outputs wraps. -/
theorem accounts_iff_of_planAmounts {amounts : List UInt64} {hasMemo : Bool}
    {feeOverride : Option Nat} {select : Nat → Nat → Except BuildError (SelectionResult Path)}
    {available : List (CandidateNote Path)} {plan : AmountPlan Path}
    (hselect : ∀ target fee selection, select target fee = .ok selection →
      NoteSelector.Covers available (target + fee) selection)
    (h : planAmounts amounts hasMemo feeOverride select = .ok plan) :
    plan.Accounts available (amounts.map UInt64.toNat) ↔
      (amounts.map UInt64.toNat).sum < 2 ^ 64 := by
  obtain ⟨fee, selection, effective, hlow, hhigh, hselection, henough, heffective, rfl⟩ :=
    planAmounts_eq_ok h
  have hcovers := hselect _ _ _ hselection
  obtain ⟨hsum, hmore, hless, hdust⟩ := applyDustPolicy_spec heffective hhigh
  constructor
  · intro haccounts
    have houtputs : amounts.sum.toNat = (amounts.map UInt64.toNat).sum := haccounts.outputs
    rw [← houtputs]
    exact amounts.sum.toNat_lt
  · intro hfits
    have houtputs : amounts.sum.toNat = (amounts.map UInt64.toNat).sum :=
      (toNat_sum amounts).trans (Nat.mod_eq_of_lt hfits)
    refine ⟨fun note hnote => hcovers.offered.subset hnote, hcovers.once, hcovers.total, houtputs,
      ?_, hdust, hlow.trans hmore, hless⟩
    rw [← hcovers.total, ← houtputs]
    dsimp only
    omega

end Plan

/-! ## `TransactionBuilder` -/

structure TransactionOutput where
  address : Bytes
  amount : UInt64
  memo : Option Memo
deriving DecidableEq

structure PendingTransaction where
  tempId : String
  outputs : List TransactionOutput
  inputValue : Nat
  outputValue : Nat
  fee : Nat
  change : Nat
deriving DecidableEq

/-- `TransactionBuilder`, as far as amounts go. -/
structure TransactionBuilder where
  outputs : List TransactionOutput
  feeOverride : Option Nat

def Memo.len : Memo → Nat
  | .empty => 0
  | .text string => string.utf8ByteSize
  | .arbitrary bytes => bytes.length

def Memo.validate (memo : Memo) : Except BuildError Unit :=
  if maxMemoLength < memo.len then
    .error (.memo (.memoTooLong s!"Memo length {memo.len} exceeds maximum {maxMemoLength}"))
  else .ok ()

/-- What adding an output checks. -/
def validateOutput (amount : UInt64) (memo : Option Memo) : Except BuildError Unit :=
  if amount = 0 then .error (.invalidAmount "Amount cannot be zero")
  else match memo with
    | some memo => memo.validate
    | none => .ok ()

section Building

variable {Path SaplingKey IronwoodKey : Type}

namespace TransactionBuilder

def addOutput (address : Bytes) (amount : UInt64) (memo : Option Memo)
    (builder : TransactionBuilder) : Except BuildError TransactionBuilder := do
  validateOutput amount memo
  .ok { builder with outputs := builder.outputs ++ [⟨address, amount, memo⟩] }

/-- `build_pending`, up to the name of its result. -/
def planPending (builder : TransactionBuilder) (availableNotes : List (CandidateNote Path)) :
    Except BuildError (AmountPlan Path) :=
  planAmounts (builder.outputs.map TransactionOutput.amount)
    (builder.outputs.any fun output => output.memo.isSome) builder.feeOverride
    (NoteSelector.selectNotes ⟨.smallestFirst⟩ availableNotes)

/-- `build_pending`. The name is made from random bytes. -/
def buildPending (random : Bytes) (builder : TransactionBuilder)
    (availableNotes : List (CandidateNote Path)) : Except BuildError PendingTransaction := do
  let plan ← builder.planPending availableNotes
  .ok {
    tempId := "pending-" ++ hexEncode random
    outputs := builder.outputs
    inputValue := plan.inputValue
    outputValue := plan.outputValue
    fee := plan.fee
    change := plan.change }

end TransactionBuilder

/-! ## The transaction library -/

/-- What a transaction spends, and with which key. -/
inductive TxSpend (Path SaplingKey IronwoodKey : Type) where
  | sapling (key : SaplingKey) (note : SaplingNote) (path : Path)
  | ironwood (key : IronwoodKey) (note : OrchardNote) (path : Path)

/-- What a transaction pays. -/
structure TxOutput where
  pool : NoteType
  ovk : Option Bytes
  address : Bytes
  amount : Nat
  memo : Bytes
deriving DecidableEq, Repr

/-- What was handed to the `Builder` of the library. -/
structure TxRequest (Path SaplingKey IronwoodKey : Type) where
  ironwoodActivationHeight : Option Nat
  targetHeight : Nat
  saplingAnchor : Option Bytes
  ironwoodAnchor : Option Bytes
  spends : List (TxSpend Path SaplingKey IronwoodKey)
  outputs : List TxOutput

/-- A transaction of the library: its id, and its bytes when they can be written. -/
structure BuiltTx where
  txid : Bytes
  rawTx : Except String Bytes

/-- The libraries that build: what an amount may be, memo fields, the prover, anchors, keys, and
the `Builder` with its refusals. -/
structure TxLibrary (Path SaplingKey IronwoodKey : Type) where
  maxMoney : Nat
  memoBytes : MemoBytes
  saplingProver : Except BuildError Unit
  saplingAnchor : SaplingNote → Path → Bytes
  emptySaplingAnchor : Bytes
  outgoingViewingKey : SaplingKey → Bytes
  addressFromDiversifier : SaplingKey → Bytes → Option Bytes
  deriveInternal : SaplingKey → SaplingKey
  internalAddress : SaplingKey → Nat → Bytes
  ironwoodOvk : IronwoodKey → Bytes
  addressAtInternal : IronwoodKey → Nat → Bytes
  refusesSpend : TxRequest Path SaplingKey IronwoodKey → TxSpend Path SaplingKey IronwoodKey →
    Option String
  refusesOutput : TxRequest Path SaplingKey IronwoodKey → TxOutput → Option String
  build : TxRequest Path SaplingKey IronwoodKey → List SaplingKey → List IronwoodKey → Nat →
    Except String BuiltTx

/-! ## `ShieldedBuilder` -/

inductive ShieldedOutput where
  | sapling (address : Bytes) (amount : UInt64) (memo : Option Memo)
  | ironwood (address : Bytes) (amount : UInt64) (memo : Option Memo)
deriving DecidableEq

namespace ShieldedOutput

def amount : ShieldedOutput → UInt64
  | sapling _ amount _ => amount
  | ironwood _ amount _ => amount

def memo : ShieldedOutput → Option Memo
  | sapling _ _ memo => memo
  | ironwood _ _ memo => memo

def isSapling : ShieldedOutput → Bool
  | sapling _ _ _ => true
  | ironwood _ _ _ => false

end ShieldedOutput

/-- `SelectedSpendNoteRef`, with the key of its note. -/
structure SelectedSpendNote extends SelectedSpendNoteRef where
  keyId : Option Int
deriving DecidableEq, Repr

structure SignedShieldedTransaction where
  txid : Bytes
  rawTx : Bytes
  size : Nat
  spentNotes : List SelectedSpendNote

structure ShieldedBuilder where
  outputs : List ShieldedOutput
  feeOverride : Option Nat
  ironwoodActivationHeight : Option Nat
  autoConsolidationExtraLimit : Nat

structure BuildAndSignMultiInputs (Path SaplingKey IronwoodKey : Type) where
  defaultSaplingSpendingKey : SaplingKey
  defaultIronwoodSpendingKey : Option IronwoodKey
  saplingSpendingKeysById : Int → Option SaplingKey
  ironwoodSpendingKeysById : Int → Option IronwoodKey
  availableNotes : List (CandidateNote Path)
  targetHeight : Nat
  ironwoodAnchor : Option Bytes
  changeDiversifierIndex : Nat

/-- The transaction while it is put together: what the library was handed, the keys that sign, and
where the change of a transaction before Ironwood goes. -/
structure Assembly (Path SaplingKey IronwoodKey : Type) where
  request : TxRequest Path SaplingKey IronwoodKey
  firstLegacySaplingChange : Option (Bytes × Bytes)
  saplingExtsks : List SaplingKey
  orchardSaks : List IronwoodKey

/-- A result of the library, with the prefix of its error. -/
def orTransactionBuild {α : Type} (message : String) (result : Except String α) :
    Except BuildError α :=
  result.mapError fun e => .transactionBuild (message ++ e)

/-- A value that has to be there. -/
def orMissing {α : Type} (message : String) : Option α → Except BuildError α
  | some value => .ok value
  | none => .error (.transactionBuild message)

namespace ShieldedBuilder

variable (library : TxLibrary Path SaplingKey IronwoodKey)

/-- The selection of `build_and_sign_multi`. -/
def select (builder : ShieldedBuilder) (availableNotes : List (CandidateNote Path))
    (targetAmount fee : Nat) : Except BuildError (SelectionResult Path) :=
  if 0 < builder.autoConsolidationExtraLimit then
    NoteSelector.selectNotesWithConsolidation ⟨.smallestFirst⟩ availableNotes targetAmount fee
      builder.autoConsolidationExtraLimit
  else NoteSelector.selectNotes ⟨.smallestFirst⟩ availableNotes targetAmount fee

/-- The start of `build_and_sign_multi`. -/
def planShielded (builder : ShieldedBuilder) (availableNotes : List (CandidateNote Path)) :
    Except BuildError (AmountPlan Path) :=
  planAmounts (builder.outputs.map ShieldedOutput.amount)
    (builder.outputs.any fun output => output.memo.isSome) builder.feeOverride
    (builder.select availableNotes)

/-- `spent_notes`. -/
def spentNote (note : CandidateNote Path) : SelectedSpendNote :=
  ⟨⟨note.outputKey, note.nullifier⟩, note.keyId⟩

/-- The loop that finds the anchor of the Sapling spends. -/
def saplingAnchorLoop : Option Bytes → List (CandidateNote Path) →
    Except BuildError (Option Bytes)
  | selectedAnchor, [] => .ok selectedAnchor
  | selectedAnchor, note :: rest =>
    if note.noteType ≠ .sapling then saplingAnchorLoop selectedAnchor rest
    else do
      let saplingNote ←
        orMissing "Missing Sapling note data for selected Sapling spend note" note.note
      let merklePath ←
        orMissing "Missing Sapling witness path for selected Sapling spend note" note.merklePath
      let noteAnchor := library.saplingAnchor saplingNote merklePath
      if selectedAnchor.any (fun existing => existing ≠ noteAnchor) then
        .error (.transactionBuild
          "Selected Sapling spend notes are not anchored to a single root")
      else saplingAnchorLoop (some noteAnchor) rest

def effectiveSaplingAnchor (builder : ShieldedBuilder) (notes : List (CandidateNote Path)) :
    Except BuildError (Option Bytes) :=
  if notes.any (fun note => note.noteType = .sapling) then do
    let selectedAnchor ← saplingAnchorLoop library none notes
    let anchor ← orMissing "Missing Sapling anchor for selected Sapling spend set" selectedAnchor
    .ok (some anchor)
  else if builder.outputs.any ShieldedOutput.isSapling then .ok (some library.emptySaplingAnchor)
  else .ok none

/-- The loop that finds the anchor of the Ironwood spends. -/
def ironwoodAnchorLoop : Option Bytes → List (CandidateNote Path) →
    Except BuildError (Option Bytes)
  | selectedAnchor, [] => .ok selectedAnchor
  | selectedAnchor, note :: rest =>
    if note.noteType ≠ .ironwood then ironwoodAnchorLoop selectedAnchor rest
    else do
      let noteAnchor ←
        orMissing "Missing Ironwood anchor for selected Ironwood spend note" note.ironwoodAnchor
      if selectedAnchor.any (fun existing => existing ≠ noteAnchor) then
        .error (.transactionBuild
          "Selected Ironwood spend notes are not anchored to a single root")
      else ironwoodAnchorLoop (some noteAnchor) rest

def effectiveIronwoodAnchor (builder : ShieldedBuilder) (provided : Option Bytes)
    (notes : List (CandidateNote Path)) : Except BuildError (Option Bytes) :=
  if notes.any (fun note => note.noteType = .ironwood) then do
    let found ← ironwoodAnchorLoop none notes
    let anchor ← orMissing "Missing Ironwood anchor for selected Ironwood spend set" found
    if provided.any (fun given => given ≠ anchor) then
      .error (.transactionBuild
        "Provided Ironwood anchor does not match selected spend-note anchor")
    else .ok (some anchor)
  else if builder.outputs.any (fun output => !output.isSapling) then .ok provided
  else .ok none

/-- The key of a Sapling spend: of the scope that the note was sent to. -/
def scopedKey (baseKey : SaplingKey) (diversifier recipient : Bytes) : SaplingKey :=
  if library.addressFromDiversifier baseKey diversifier = some recipient then baseKey
  else if library.addressFromDiversifier (library.deriveInternal baseKey) diversifier =
      some recipient then library.deriveInternal baseKey
  else baseKey

/-- `Builder::add_sapling_spend` and `Builder::add_ironwood_spend`. -/
def handSpend (message : String) (spend : TxSpend Path SaplingKey IronwoodKey)
    (request : TxRequest Path SaplingKey IronwoodKey) :
    Except BuildError (TxRequest Path SaplingKey IronwoodKey) :=
  match library.refusesSpend request spend with
  | some e => .error (.transactionBuild (message ++ e))
  | none => .ok { request with spends := request.spends ++ [spend] }

/-- `Builder::add_sapling_output` and `Builder::add_ironwood_output`, with the conversion of the
amount that stands among their arguments. -/
def handOutput (outOfRange message : String) (output : TxOutput)
    (request : TxRequest Path SaplingKey IronwoodKey) :
    Except BuildError (TxRequest Path SaplingKey IronwoodKey) :=
  if library.maxMoney < output.amount then .error (.invalidAmount outOfRange)
  else match library.refusesOutput request output with
    | some e => .error (.transactionBuild (message ++ e))
    | none => .ok { request with outputs := request.outputs ++ [output] }

variable (inputs : BuildAndSignMultiInputs Path SaplingKey IronwoodKey)

/-- The loop body that adds a Sapling spend. -/
def addSaplingSpend (note : CandidateNote Path)
    (assembly : Assembly Path SaplingKey IronwoodKey) :
    Except BuildError (Assembly Path SaplingKey IronwoodKey) := do
  let diversifier ← orMissing "Missing diversifier for note" note.diversifier
  let saplingNote ← orMissing "Missing Sapling note data" note.note
  let merklePath ← orMissing "Missing Sapling witness path" note.merklePath
  let baseKey := (note.keyId.bind inputs.saplingSpendingKeysById).getD
    inputs.defaultSaplingSpendingKey
  let key := scopedKey library baseKey diversifier saplingNote.address
  let request ← handSpend library "Failed to add Sapling spend: "
    (.sapling key saplingNote merklePath) assembly.request
  .ok {
    request
    firstLegacySaplingChange := assembly.firstLegacySaplingChange.or
      (some (library.outgoingViewingKey baseKey, saplingNote.address))
    saplingExtsks := assembly.saplingExtsks ++ [key]
    orchardSaks := assembly.orchardSaks }

/-- The loop body that adds an Ironwood spend. -/
def addIronwoodSpend (note : CandidateNote Path)
    (assembly : Assembly Path SaplingKey IronwoodKey) :
    Except BuildError (Assembly Path SaplingKey IronwoodKey) := do
  let ironwoodNote ← orMissing "Missing Ironwood note data" note.ironwoodNote
  let merklePath ← orMissing "Missing Ironwood merkle path" note.ironwoodMerklePath
  let key ← orMissing "Ironwood spending key required for Ironwood spends"
    ((note.keyId.bind inputs.ironwoodSpendingKeysById).or inputs.defaultIronwoodSpendingKey)
  let request ← handSpend library "Failed to add Ironwood spend: "
    (.ironwood key ironwoodNote merklePath) assembly.request
  .ok { assembly with request, orchardSaks := assembly.orchardSaks ++ [key] }

/-- The body of the loop over the selected notes. -/
def addSpend (note : CandidateNote Path) (assembly : Assembly Path SaplingKey IronwoodKey) :
    Except BuildError (Assembly Path SaplingKey IronwoodKey) :=
  match note.noteType with
  | .sapling => addSaplingSpend library inputs note assembly
  | .ironwood => addIronwoodSpend library inputs note assembly

/-- The loop over the selected notes. -/
def addSpends : List (CandidateNote Path) → Assembly Path SaplingKey IronwoodKey →
    Except BuildError (Assembly Path SaplingKey IronwoodKey)
  | [], assembly => .ok assembly
  | note :: rest, assembly => do
    let assembly ← addSpend library inputs note assembly
    addSpends rest assembly

/-- The memo field of an output. -/
def memoField (memo : Option Memo) : Except BuildError Bytes :=
  match memo with
  | some memo => (memo.toMemoBytes library.memoBytes).mapError BuildError.memo
  | none => .ok library.memoBytes.empty

/-- The loop over the outputs. -/
def addOutputs : List ShieldedOutput → TxRequest Path SaplingKey IronwoodKey →
    Except BuildError (TxRequest Path SaplingKey IronwoodKey)
  | [], request => .ok request
  | .sapling address amount memo :: rest, request => do
    let field ← memoField library memo
    let request ← handOutput library "Amount out of range" "Failed to add Sapling output: "
      ⟨.sapling, some (library.outgoingViewingKey inputs.defaultSaplingSpendingKey), address,
        amount.toNat, field⟩ request
    addOutputs rest request
  | .ironwood address amount memo :: rest, request => do
    let field ← memoField library memo
    let request ← handOutput library "Amount out of range" "Failed to add Ironwood output: "
      ⟨.ironwood, inputs.defaultIronwoodSpendingKey.map library.ironwoodOvk, address,
        amount.toNat, field⟩ request
    addOutputs rest request

/-- The change output: to Ironwood when the transaction touches it, after the activation to the
internal Sapling address, and before it to where the first Sapling note was received. -/
def addChange (builder : ShieldedBuilder) (plan : AmountPlan Path)
    (legacyChange : Option (Bytes × Bytes)) (request : TxRequest Path SaplingKey IronwoodKey) :
    Except BuildError (TxRequest Path SaplingKey IronwoodKey) :=
  if changeDustThreshold ≤ plan.change then
    if builder.outputs.any (fun output => !output.isSapling) ||
        plan.notes.any (fun note => note.noteType = .ironwood) then do
      let key ← orMissing "Ironwood spending key required for Ironwood change"
        inputs.defaultIronwoodSpendingKey
      handOutput library "Change amount out of range" "Failed to add Ironwood change output: "
        ⟨.ironwood, some (library.ironwoodOvk key),
          library.addressAtInternal key inputs.changeDiversifierIndex, plan.change,
          library.memoBytes.empty⟩ request
    else if builder.ironwoodActivationHeight.any (fun height => height ≤ inputs.targetHeight) then
      handOutput library "Change amount out of range" "Failed to add Sapling change output: "
        ⟨.sapling, some (library.outgoingViewingKey inputs.defaultSaplingSpendingKey),
          library.internalAddress inputs.defaultSaplingSpendingKey inputs.changeDiversifierIndex,
          plan.change, library.memoBytes.empty⟩ request
    else do
      let (ovk, address) ← orMissing "Sapling legacy change requires a selected Sapling spend"
        legacyChange
      handOutput library "Change amount out of range"
        "Failed to add legacy Sapling change output: "
        ⟨.sapling, some ovk, address, plan.change, library.memoBytes.empty⟩ request
  else .ok request

/-- What `build_and_sign_multi` hands to the library, after its plan. -/
def assemble (builder : ShieldedBuilder) (plan : AmountPlan Path) :
    Except BuildError (Assembly Path SaplingKey IronwoodKey) := do
  let saplingAnchor ← effectiveSaplingAnchor library builder plan.notes
  let ironwoodAnchor ← effectiveIronwoodAnchor builder inputs.ironwoodAnchor plan.notes
  library.saplingProver
  let assembly ← addSpends library inputs plan.notes
    ⟨⟨builder.ironwoodActivationHeight, inputs.targetHeight, saplingAnchor, ironwoodAnchor, [], []⟩,
      none, [], []⟩
  let request ← addOutputs library inputs builder.outputs assembly.request
  let request ← addChange library inputs builder plan assembly.firstLegacySaplingChange request
  .ok { assembly with request }

def buildAndSignMulti (builder : ShieldedBuilder) :
    Except BuildError SignedShieldedTransaction := do
  let plan ← builder.planShielded inputs.availableNotes
  let assembly ← assemble library inputs builder plan
  if library.maxMoney < plan.fee then .error (.invalidAmount "Fee amount out of range")
  else do
    let tx ← orTransactionBuild "Failed to build transaction: "
      (library.build assembly.request assembly.saplingExtsks assembly.orchardSaks plan.fee)
    let rawTx ← orTransactionBuild "Failed to serialize transaction: " tx.rawTx
    .ok ⟨tx.txid, rawTx, rawTx.length, plan.notes.map spentNote⟩

end ShieldedBuilder

end Building

end StashiWallet
