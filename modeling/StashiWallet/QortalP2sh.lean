import StashiWallet.QortalScriptSig
import StashiWallet.TransactionBalance

/-!
# Qortal P2SH transactions

A funding transaction spends shielded notes and pays its recipients; the script it is made for goes
into outputs without value. What the notes have above the recipients and the fee is change, or joins
the fee as dust. A redemption or refund spends the one output that was funded, and pays out all of
it. Every sum is checked.
-/

namespace StashiWallet

inductive QortalRecipient where
  | sapling (address : Bytes) (amount : Nat) (memo : Option Memo)
  | ironwood (address : Bytes) (amount : Nat) (memo : Option Memo)
  | transparent (address : Bytes) (amount : Nat)
deriving DecidableEq

namespace QortalRecipient

def amount : QortalRecipient → Nat
  | sapling _ amount _ => amount
  | ironwood _ amount _ => amount
  | transparent _ amount => amount

def isIronwood : QortalRecipient → Bool
  | ironwood _ _ _ => true
  | _ => false

end QortalRecipient

def recipientTotal (recipients : List QortalRecipient) : Except BuildError Nat :=
  recipients.foldlM (fun total recipient =>
    u64CheckedAdd (.amountOverflow "Output amount overflow") total recipient.amount) 0

/-- `QortalP2shFundingPlan`, with the activation height of its network if that is fixed. -/
structure QortalP2shFundingPlan (Path SaplingKey IronwoodKey : Type) where
  networkActivationHeight : Option Nat
  defaultSaplingSpendingKey : SaplingKey
  defaultIronwoodSpendingKey : Option IronwoodKey
  saplingSpendingKeysById : Int → Option SaplingKey
  ironwoodSpendingKeysById : Int → Option IronwoodKey
  availableNotes : List (CandidateNote Path)
  targetHeight : Nat
  ironwoodActivationHeight : Option Nat
  ironwoodAnchor : Option Bytes
  changeDiversifierIndex : Nat
  recipients : List QortalRecipient
  fee : Nat
  scriptPubkey : Bytes
  scriptEachRecipient : Bool

structure TxOut where
  value : Nat
  scriptPubkey : Bytes
deriving DecidableEq, Repr

/-- `QortalP2shRedeemPlan`, with the activation height of its network if that is fixed. -/
structure QortalP2shRedeemPlan (PrivateKey : Type) where
  networkActivationHeight : Option Nat
  targetHeight : Nat
  ironwoodActivationHeight : Option Nat
  ironwoodAnchor : Option Bytes
  fundingTxid : Bytes
  fundingCoin : TxOut
  recipients : List QortalRecipient
  fee : Nat
  redeemScript : Bytes
  lockTime : Nat
  secret : Bytes
  privkey : PrivateKey

/-- The transaction while it is put together. -/
structure QortalAssembly (Path SaplingKey IronwoodKey : Type) extends
    Assembly Path SaplingKey IronwoodKey where
  transparentVout : List TxOut

/-- The transparent input of a redemption. -/
structure RedeemInput where
  fundingTxid : Bytes
  fundingCoin : TxOut
  sequence : Nat
  lockTime : Nat
  scriptCode : Bytes
deriving DecidableEq, Repr

/-- The libraries that build: beside those of a shielded transaction the version of a height, the
builder of the Ironwood bundle, the script of an address, and what makes a transaction of the
parts, signs its transparent input and writes it. -/
structure QortalLibrary (Path SaplingKey IronwoodKey PrivateKey : Type) extends
    TxLibrary Path SaplingKey IronwoodKey where
  suggestsV6 : Option Nat → Nat → Bool
  refusesAnchor : Bytes → Option String
  addressScript : Bytes → Bytes
  finishFunding : QortalAssembly Path SaplingKey IronwoodKey → Except String BuiltTx
  signInput : QortalAssembly Path SaplingKey IronwoodKey → RedeemInput → PrivateKey →
    Except String Bytes
  finishRedeem : QortalAssembly Path SaplingKey IronwoodKey → RedeemInput → Bytes →
    Except String BuiltTx

structure SignedQortalTransaction where
  txid : Bytes
  rawTx : Bytes
  size : Nat
deriving DecidableEq, Repr

def buildScriptPubkey (scriptBytes : Bytes) : Except BuildError Bytes :=
  if scriptBytes.isEmpty then .error (.transactionBuild "Script pubkey bytes are empty")
  else .ok scriptBytes

structure OutputBuildOptions where
  scriptPubkey : Option Bytes
  scriptEachRecipient : Bool
  saplingOvk : Bytes
  orchardOvk : Option Bytes

section Building

variable {Path SaplingKey IronwoodKey PrivateKey : Type}
  (library : QortalLibrary Path SaplingKey IronwoodKey PrivateKey)

/-- `add_output` of a shielded builder. -/
def addShieldedOutput (message : String) (output : TxOutput)
    (assembly : QortalAssembly Path SaplingKey IronwoodKey) :
    Except BuildError (QortalAssembly Path SaplingKey IronwoodKey) :=
  match library.refusesOutput assembly.request output with
  | some e => .error (.transactionBuild (message ++ e))
  | none => .ok { assembly with
      request := { assembly.request with outputs := assembly.request.outputs ++ [output] } }

/-- The output of one recipient. -/
def addRecipient (options : OutputBuildOptions) (recipient : QortalRecipient)
    (assembly : QortalAssembly Path SaplingKey IronwoodKey) :
    Except BuildError (QortalAssembly Path SaplingKey IronwoodKey) :=
  match recipient with
  | .sapling address amount memo => do
    let field ← ShieldedBuilder.memoField library.toTxLibrary memo
    addShieldedOutput library "Failed to add Sapling output: "
      ⟨.sapling, some options.saplingOvk, address, amount, field⟩ assembly
  | .ironwood address amount memo =>
    -- the bundle has an anchor as soon as it has a builder
    if assembly.request.ironwoodAnchor.isNone then
      .error (.transactionBuild "Ironwood builder not initialized")
    else do
      let field ← ShieldedBuilder.memoField library.toTxLibrary memo
      addShieldedOutput library "Failed to add Ironwood output: "
        ⟨.ironwood, options.orchardOvk, address, amount, field⟩ assembly
  | .transparent address amount =>
    if library.maxMoney < amount then
      .error (.invalidAmount "Transparent amount out of range")
    else .ok { assembly with
      transparentVout := assembly.transparentVout ++ [⟨amount, library.addressScript address⟩] }

/-- A script output, which has no value. -/
def pushScript (scriptPubkey : Bytes) (assembly : QortalAssembly Path SaplingKey IronwoodKey) :
    QortalAssembly Path SaplingKey IronwoodKey :=
  { assembly with transparentVout := assembly.transparentVout ++ [⟨0, scriptPubkey⟩] }

/-- The loop of `add_outputs_and_script`. -/
def addRecipients (options : OutputBuildOptions) :
    List QortalRecipient → QortalAssembly Path SaplingKey IronwoodKey →
      Except BuildError (QortalAssembly Path SaplingKey IronwoodKey)
  | [], assembly => .ok assembly
  | recipient :: rest, assembly => do
    let assembly ← addRecipient library options recipient assembly
    if options.scriptEachRecipient then
      let scriptPubkey ← orMissing "Missing script output bytes" options.scriptPubkey
      addRecipients options rest (pushScript scriptPubkey assembly)
    else addRecipients options rest assembly

def addOutputsAndScript (options : OutputBuildOptions) (recipients : List QortalRecipient)
    (assembly : QortalAssembly Path SaplingKey IronwoodKey) :
    Except BuildError (QortalAssembly Path SaplingKey IronwoodKey) := do
  let assembly ← addRecipients library options recipients assembly
  if options.scriptEachRecipient then .ok assembly
  else match options.scriptPubkey with
    | some scriptPubkey => .ok (pushScript scriptPubkey assembly)
    | none => .ok assembly

/-- The anchor of the Ironwood builder, if one is needed. -/
def ironwoodBuilderAnchor (needed : Bool) (anchor : Option Bytes) :
    Except BuildError (Option Bytes) :=
  if needed then do
    let anchor ← orMissing "Missing Ironwood anchor" anchor
    match library.refusesAnchor anchor with
    | some e => .error (.transactionBuild ("Failed to create Ironwood builder: " ++ e))
    | none => .ok (some anchor)
  else .ok none

/-- Ironwood outputs and spends need a transaction of version 6. -/
def requireV6 (ironwood : Bool) (activationHeight : Option Nat) (targetHeight : Nat) :
    Except BuildError Unit :=
  if ironwood && !library.suggestsV6 activationHeight targetHeight then
    .error (.transactionBuild "Ironwood is not active at the target height")
  else .ok ()

/-! ## Funding -/

/-- `selected_sapling_anchor`, with the anchor found so far. -/
def selectedSaplingAnchor : Option Bytes → List (CandidateNote Path) →
    Except BuildError (Option Bytes)
  | selectedAnchor, [] => .ok selectedAnchor
  | selectedAnchor, note :: rest =>
    if note.noteType ≠ .sapling then selectedSaplingAnchor selectedAnchor rest
    else do
      let saplingNote ← orMissing "Missing Sapling note" note.note
      let merklePath ← orMissing "Missing Sapling merkle path" note.merklePath
      let noteAnchor := library.saplingAnchor saplingNote merklePath
      if selectedAnchor.any (fun existing => existing ≠ noteAnchor) then
        .error (.transactionBuild
          "Selected Sapling spend notes are not anchored to a single root")
      else selectedSaplingAnchor (selectedAnchor.or (some noteAnchor)) rest

/-- The anchor of the Sapling builder. -/
def fundingSaplingAnchor (notes : List (CandidateNote Path)) : Except BuildError Bytes :=
  if notes.any (fun note => note.noteType = .sapling) then do
    let selectedAnchor ← selectedSaplingAnchor library none notes
    orMissing "Missing Sapling anchor for selected spends" selectedAnchor
  else .ok library.emptySaplingAnchor

variable (plan : QortalP2shFundingPlan Path SaplingKey IronwoodKey)

/-- The amounts of `build_qortal_p2sh_funding_transaction`. -/
def planFunding : Except BuildError (AmountPlan Path) := do
  let _ ← buildScriptPubkey plan.scriptPubkey
  let totalValue ← recipientTotal plan.recipients
  let targetTotal ← u64CheckedAdd (.amountOverflow "Output + fee overflow") totalValue plan.fee
  let selection ← NoteSelector.selectNotes ⟨.smallestFirst⟩ plan.availableNotes totalValue plan.fee
  if selection.totalValue < targetTotal then
    .error (.insufficientFunds "Insufficient funds for Qortal P2SH funding")
  else do
    let effective ← applyDustPolicyAddToFee plan.fee (selection.totalValue - targetTotal)
    .ok ⟨selection.notes, selection.totalValue, totalValue, effective.fee, effective.change⟩

/-- The loop body that adds a Sapling spend. -/
def addFundingSaplingSpend (note : CandidateNote Path)
    (assembly : QortalAssembly Path SaplingKey IronwoodKey) :
    Except BuildError (QortalAssembly Path SaplingKey IronwoodKey) := do
  let diversifier ← orMissing "Missing Sapling diversifier" note.diversifier
  let saplingNote ← orMissing "Missing Sapling note" note.note
  let merklePath ← orMissing "Missing Sapling merkle path" note.merklePath
  let baseKey := (note.keyId.bind plan.saplingSpendingKeysById).getD
    plan.defaultSaplingSpendingKey
  let key := ShieldedBuilder.scopedKey library.toTxLibrary baseKey diversifier saplingNote.address
  let request ← ShieldedBuilder.handSpend library.toTxLibrary "Failed to add Sapling spend: "
    (.sapling key saplingNote merklePath) assembly.request
  .ok { assembly with
    request
    firstLegacySaplingChange := assembly.firstLegacySaplingChange.or
      (some (library.outgoingViewingKey baseKey, saplingNote.address))
    saplingExtsks := assembly.saplingExtsks ++ [key] }

/-- The loop body that adds an Ironwood spend. -/
def addFundingIronwoodSpend (note : CandidateNote Path)
    (assembly : QortalAssembly Path SaplingKey IronwoodKey) :
    Except BuildError (QortalAssembly Path SaplingKey IronwoodKey) := do
  let ironwoodNote ← orMissing "Missing Ironwood note" note.ironwoodNote
  let merklePath ← orMissing "Missing Ironwood merkle path" note.ironwoodMerklePath
  let key ← orMissing "Missing Ironwood spending key"
    ((note.keyId.bind plan.ironwoodSpendingKeysById).or plan.defaultIronwoodSpendingKey)
  let request ← ShieldedBuilder.handSpend library.toTxLibrary "Failed to add Ironwood spend: "
    (.ironwood key ironwoodNote merklePath) assembly.request
  .ok { assembly with request, orchardSaks := assembly.orchardSaks ++ [key] }

/-- The body of the loop over the selected notes. -/
def addFundingSpend (note : CandidateNote Path)
    (assembly : QortalAssembly Path SaplingKey IronwoodKey) :
    Except BuildError (QortalAssembly Path SaplingKey IronwoodKey) :=
  match note.noteType with
  | .sapling => addFundingSaplingSpend library plan note assembly
  | .ironwood => addFundingIronwoodSpend library plan note assembly

/-- The loop over the selected notes. -/
def addFundingSpends : List (CandidateNote Path) → QortalAssembly Path SaplingKey IronwoodKey →
    Except BuildError (QortalAssembly Path SaplingKey IronwoodKey)
  | [], assembly => .ok assembly
  | note :: rest, assembly => do
    let assembly ← addFundingSpend library plan note assembly
    addFundingSpends rest assembly

/-- The change output. -/
def addFundingChange (useOrchardChange : Bool) (activationHeight : Option Nat) (change : Nat)
    (assembly : QortalAssembly Path SaplingKey IronwoodKey) :
    Except BuildError (QortalAssembly Path SaplingKey IronwoodKey) :=
  if changeDustThreshold ≤ change then
    if useOrchardChange then do
      let key ← orMissing "Missing Ironwood spending key for change"
        plan.defaultIronwoodSpendingKey
      addShieldedOutput library "Failed to add Ironwood change: "
        ⟨.ironwood, plan.defaultIronwoodSpendingKey.map library.ironwoodOvk,
          library.addressAtInternal key plan.changeDiversifierIndex, change,
          library.memoBytes.empty⟩ assembly
    else if activationHeight.any (fun height => height ≤ plan.targetHeight) then
      addShieldedOutput library "Failed to add Sapling change: "
        ⟨.sapling, some (library.outgoingViewingKey plan.defaultSaplingSpendingKey),
          library.internalAddress plan.defaultSaplingSpendingKey plan.changeDiversifierIndex,
          change, library.memoBytes.empty⟩ assembly
    else do
      let legacy ← orMissing "Sapling legacy change requires a selected Sapling spend"
        assembly.firstLegacySaplingChange
      addShieldedOutput library "Failed to add legacy Sapling change: "
        ⟨.sapling, some legacy.1, legacy.2, change, library.memoBytes.empty⟩ assembly
  else .ok assembly

/-- What `build_qortal_p2sh_funding_transaction` puts together. -/
def assembleFunding (amounts : AmountPlan Path) :
    Except BuildError (QortalAssembly Path SaplingKey IronwoodKey) := do
  let activationHeight := plan.networkActivationHeight.or plan.ironwoodActivationHeight
  let hasOrchard := amounts.notes.any (fun note => note.noteType = .ironwood) ||
    plan.recipients.any QortalRecipient.isIronwood
  requireV6 library hasOrchard activationHeight plan.targetHeight
  let saplingAnchor ← fundingSaplingAnchor library amounts.notes
  let ironwoodAnchor ← ironwoodBuilderAnchor library hasOrchard plan.ironwoodAnchor
  let assembly ← addFundingSpends library plan amounts.notes
    ⟨⟨⟨activationHeight, plan.targetHeight, some saplingAnchor, ironwoodAnchor, [], []⟩, none, [],
      []⟩, []⟩
  let assembly ← addOutputsAndScript library
    ⟨some plan.scriptPubkey, plan.scriptEachRecipient,
      library.outgoingViewingKey plan.defaultSaplingSpendingKey,
      plan.defaultIronwoodSpendingKey.map library.ironwoodOvk⟩ plan.recipients assembly
  addFundingChange library plan hasOrchard activationHeight amounts.change assembly

def buildQortalP2shFundingTransaction : Except BuildError SignedShieldedTransaction := do
  let amounts ← planFunding plan
  let assembly ← assembleFunding library plan amounts
  library.saplingProver
  let tx ← orTransactionBuild "" (library.finishFunding assembly)
  let rawTx ← orTransactionBuild "Failed to serialize transaction: " tx.rawTx
  .ok ⟨tx.txid, rawTx, rawTx.length, amounts.notes.map ShieldedBuilder.spentNote⟩

/-! ## Redemption and refund -/

variable (redeem : QortalP2shRedeemPlan PrivateKey)

/-- The outputs of `build_qortal_p2sh_redeem_transaction`. -/
def assembleRedeem : Except BuildError (QortalAssembly Path SaplingKey IronwoodKey) := do
  let activationHeight := redeem.networkActivationHeight.or redeem.ironwoodActivationHeight
  let hasOrchard := redeem.recipients.any QortalRecipient.isIronwood
  requireV6 library hasOrchard activationHeight redeem.targetHeight
  let ironwoodAnchor ← ironwoodBuilderAnchor library hasOrchard redeem.ironwoodAnchor
  addOutputsAndScript library ⟨none, false, List.replicate 32 0, none⟩ redeem.recipients
    ⟨⟨⟨activationHeight, redeem.targetHeight, some library.emptySaplingAnchor, ironwoodAnchor, [],
      []⟩, none, [], []⟩, []⟩

/-- `Amount::from_u64`. -/
def amountFromU64 (message : String) (value : Nat) : Except BuildError Nat :=
  if library.maxMoney < value then .error (.invalidAmount message) else .ok value

/-- The funding output has to be worth the recipients and the fee. -/
def checkFundingCoin : Except BuildError Unit := do
  let feeAmount ← amountFromU64 library "Invalid fee" redeem.fee
  let total ← recipientTotal redeem.recipients
  let outputsTotal ← amountFromU64 library "Invalid output amount" total
  if library.maxMoney < outputsTotal + feeAmount then
    .error (.amountOverflow "Transparent output + fee overflow")
  else if redeem.fundingCoin.value < outputsTotal + feeAmount then
    .error (.insufficientFunds "Funding output value is less than outputs plus fee")
  else if outputsTotal + feeAmount < redeem.fundingCoin.value then
    .error (.transactionBuild
      "Funding output value exceeds outputs plus fee; refusing to burn the remainder")
  else .ok ()

def buildQortalP2shRedeemTransaction : Except BuildError SignedQortalTransaction := do
  let scriptCode ← buildScriptPubkey redeem.redeemScript
  let assembly ← assembleRedeem library redeem
  checkFundingCoin library redeem
  library.saplingProver
  let input : RedeemInput := ⟨redeem.fundingTxid, redeem.fundingCoin,
    if 0 < redeem.lockTime then 0xFFFFFFFE else 0xFFFFFFFF, redeem.lockTime, scriptCode⟩
  let signature ← orTransactionBuild "" (library.signInput assembly input redeem.privkey)
  -- the byte of `SIGHASH_ALL`
  let scriptSig := buildP2shScriptSig (signature ++ [1]) redeem.secret redeem.redeemScript
  let tx ← orTransactionBuild "" (library.finishRedeem assembly input scriptSig)
  let rawTx ← orTransactionBuild "Failed to serialize transaction: " tx.rawTx
  .ok ⟨tx.txid, rawTx, rawTx.length⟩

end Building

end StashiWallet
