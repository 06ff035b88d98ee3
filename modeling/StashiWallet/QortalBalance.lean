import StashiWallet.QortalP2sh
import StashiWallet.SelectionCover

/-!
# The balance of Qortal P2SH transactions

What a funding transaction spends is what it pays, keeps and leaves as fee. What a redemption or
refund spends is what it pays and leaves as fee, to the last unit.
-/

namespace StashiWallet

/-- What recipients are paid together. -/
abbrev recipientSum (recipients : List QortalRecipient) : Nat :=
  CoveringPrefix.total QortalRecipient.amount recipients

section Balance

variable {Path SaplingKey IronwoodKey PrivateKey : Type}

/-- What the shielded outputs of a recipient pay. -/
def QortalRecipient.shieldedAmounts : QortalRecipient → List Nat
  | sapling _ amount _ => [amount]
  | ironwood _ amount _ => [amount]
  | transparent _ _ => []

/-- The transparent outputs of a recipient, without a script. -/
def QortalRecipient.ownOutputs (library : QortalLibrary Path SaplingKey IronwoodKey PrivateKey) :
    QortalRecipient → List TxOut
  | sapling _ _ _ => []
  | ironwood _ _ _ => []
  | transparent address amount => [⟨amount, library.addressScript address⟩]

/-- The script output behind each recipient, or the one behind all. -/
def OutputBuildOptions.scripts (options : OutputBuildOptions) (eachRecipient : Bool) :
    List TxOut :=
  if options.scriptEachRecipient = eachRecipient then options.scriptPubkey.toList.map (TxOut.mk 0)
  else []

def transparentOutputs (library : QortalLibrary Path SaplingKey IronwoodKey PrivateKey)
    (options : OutputBuildOptions) (recipients : List QortalRecipient) : List TxOut :=
  recipients.flatMap (fun recipient => recipient.ownOutputs library ++ options.scripts true) ++
    options.scripts false

/-- What a transaction pays, change included. -/
def QortalAssembly.paid (assembly : QortalAssembly Path SaplingKey IronwoodKey) : Nat :=
  (assembly.request.outputs.map TxOutput.amount).sum + (assembly.transparentVout.map TxOut.value).sum

/-- The transaction pays each recipient its amount, the scripts nothing, and the change. -/
structure QortalAssembly.Pays (library : QortalLibrary Path SaplingKey IronwoodKey PrivateKey)
    (options : OutputBuildOptions) (recipients : List QortalRecipient) (change : Nat)
    (assembly : QortalAssembly Path SaplingKey IronwoodKey) : Prop where
  shielded : assembly.request.outputs.map TxOutput.amount =
    recipients.flatMap QortalRecipient.shieldedAmounts ++ if change = 0 then [] else [change]
  transparent : assembly.transparentVout = transparentOutputs library options recipients

/-- The amounts of a funding transaction: what its notes are worth is what the recipients are paid,
the change and the fee. Dust is the only thing that joins the fee, and no sum exceeds a `u64`. -/
structure FundingAccounts (plan : QortalP2shFundingPlan Path SaplingKey IronwoodKey)
    (amounts : AmountPlan Path) : Prop where
  offered : amounts.notes.Subperm plan.availableNotes
  inputs : amounts.inputValue = NoteSelector.totalOf amounts.notes
  outputs : amounts.outputValue = recipientSum plan.recipients
  balance : NoteSelector.totalOf amounts.notes =
    recipientSum plan.recipients + amounts.change + amounts.fee
  change : amounts.change = 0 ∨ changeDustThreshold ≤ amounts.change
  fee : amounts.fee = plan.fee ∨
    amounts.change = 0 ∧ plan.fee < amounts.fee ∧ amounts.fee < plan.fee + changeDustThreshold
  inputsFit : NoteSelector.totalOf amounts.notes ≤ u64Max
  outputsFit : recipientSum plan.recipients + plan.fee ≤ u64Max
  feeFits : amounts.fee ≤ u64Max

/-! ## Sums -/

variable {library : QortalLibrary Path SaplingKey IronwoodKey PrivateKey}
  {plan : QortalP2shFundingPlan Path SaplingKey IronwoodKey} {redeem : QortalP2shRedeemPlan PrivateKey}
  {options : OutputBuildOptions} {recipients : List QortalRecipient}
  {assembly assembly' : QortalAssembly Path SaplingKey IronwoodKey} {message : String}

theorem foldlM_checkedAdd {error : BuildError} {start total : Nat}
    (h : recipients.foldlM (fun total recipient =>
      u64CheckedAdd error total recipient.amount) start = .ok total) :
    total = start + recipientSum recipients ∧ (start ≤ u64Max → total ≤ u64Max) := by
  induction recipients generalizing start with
  | nil =>
    obtain rfl := Except.ok.inj h
    exact ⟨rfl, id⟩
  | cons recipient rest ih =>
    rw [List.foldlM_cons] at h
    obtain ⟨sum, hsum, h⟩ := bind_eq_ok h
    obtain ⟨hfits, rfl⟩ := NoteSelector.u64CheckedAdd_eq_ok.mp hsum
    obtain ⟨htotal, hle⟩ := ih h
    refine ⟨?_, fun _ => hle hfits⟩
    rw [htotal, recipientSum, recipientSum, CoveringPrefix.total_cons, Nat.add_assoc]

/-- The total of the recipients is their exact sum. -/
theorem recipientTotal_eq_ok {total : Nat} (h : recipientTotal recipients = .ok total) :
    total = recipientSum recipients ∧ total ≤ u64Max := by
  obtain ⟨htotal, hle⟩ := foldlM_checkedAdd h
  exact ⟨htotal.trans (Nat.zero_add _), hle (Nat.zero_le _)⟩

/-- The dust policy moves dust to the fee, whatever the fee was. -/
theorem applyDustPolicy_moves {baseFee change : Nat} {effective : EffectiveFeeAndChange}
    (h : applyDustPolicyAddToFee baseFee change = .ok effective) :
    effective.change + effective.fee = change + baseFee ∧
      (effective.change = 0 ∨ changeDustThreshold ≤ effective.change) ∧
      (effective.fee = baseFee ∨ effective.change = 0 ∧ baseFee < effective.fee ∧
        effective.fee < baseFee + changeDustThreshold) ∧
      (baseFee ≤ u64Max → effective.fee ≤ u64Max) := by
  unfold applyDustPolicyAddToFee at h
  by_cases hkept : change = 0 ∨ changeDustThreshold ≤ change
  · rw [if_pos hkept] at h
    obtain rfl := Except.ok.inj h
    exact ⟨rfl, hkept, .inl rfl, id⟩
  · -- the change is dust and goes to the fee
    rw [if_neg hkept] at h
    obtain ⟨sum, hsum, h⟩ := bind_eq_ok h
    obtain ⟨hfits, rfl⟩ := NoteSelector.u64CheckedAdd_eq_ok.mp hsum
    by_cases hhigh : maxFee < baseFee + change
    · rw [if_pos hhigh] at h
      cases h
    · rw [if_neg hhigh] at h
      obtain rfl := Except.ok.inj h
      refine ⟨?_, .inl rfl, .inr ⟨rfl, ?_, ?_⟩, fun _ => hfits⟩
      · exact (Nat.zero_add _).trans (Nat.add_comm _ _)
      · show baseFee < baseFee + change
        omega
      · show baseFee + change < baseFee + changeDustThreshold
        omega

theorem planFunding_accounts {amounts : AmountPlan Path} (h : planFunding plan = .ok amounts) :
    FundingAccounts plan amounts := by
  unfold planFunding at h
  obtain ⟨_, -, h⟩ := bind_eq_ok h
  obtain ⟨total, htotal, h⟩ := bind_eq_ok h
  obtain ⟨rfl, -⟩ := recipientTotal_eq_ok htotal
  obtain ⟨target, htarget, h⟩ := bind_eq_ok h
  obtain ⟨hfits, rfl⟩ := NoteSelector.u64CheckedAdd_eq_ok.mp htarget
  obtain ⟨selection, hselection, h⟩ := bind_eq_ok h
  have hcovers := NoteSelector.selectNotes_covers hselection
  have hsum : selection.totalValue = NoteSelector.totalOf selection.notes := hcovers.total
  rw [if_neg (Nat.not_lt_of_le hcovers.enough)] at h
  obtain ⟨effective, heffective, h⟩ := bind_eq_ok h
  obtain rfl := Except.ok.inj h
  obtain ⟨hmoved, hdust, hfee, hfeeFits⟩ := applyDustPolicy_moves heffective
  have henough := hcovers.enough
  refine ⟨hcovers.offered, hsum, rfl, ?_, hdust, hfee, hsum ▸ hcovers.fits, hfits,
    hfeeFits ((Nat.le_add_left _ _).trans hfits)⟩
  rw [← hsum]
  dsimp only
  omega

/-! ## Outputs -/

theorem addShieldedOutput_eq_ok {output : TxOutput}
    (h : addShieldedOutput library message output assembly = .ok assembly') :
    assembly' = { assembly with
      request := { assembly.request with outputs := assembly.request.outputs ++ [output] } } := by
  unfold addShieldedOutput at h
  split at h
  · cases h
  · exact (Except.ok.inj h).symm

/-- What outputs add to a transaction. -/
structure AddsOutputs (shielded : List Nat) (transparent : List TxOut)
    (assembly assembly' : QortalAssembly Path SaplingKey IronwoodKey) : Prop where
  spends : assembly'.request.spends = assembly.request.spends
  shielded : assembly'.request.outputs.map TxOutput.amount =
    assembly.request.outputs.map TxOutput.amount ++ shielded
  transparent : assembly'.transparentVout = assembly.transparentVout ++ transparent

theorem AddsOutputs.nil : AddsOutputs [] [] assembly assembly :=
  ⟨rfl, (List.append_nil _).symm, (List.append_nil _).symm⟩

theorem AddsOutputs.trans {assembly'' : QortalAssembly Path SaplingKey IronwoodKey}
    {shielded more : List Nat} {transparent further : List TxOut}
    (h : AddsOutputs shielded transparent assembly assembly')
    (hnext : AddsOutputs more further assembly' assembly'') :
    AddsOutputs (shielded ++ more) (transparent ++ further) assembly assembly'' := by
  refine ⟨hnext.spends.trans h.spends, ?_, ?_⟩
  · rw [hnext.shielded, h.shielded, List.append_assoc]
  · rw [hnext.transparent, h.transparent, List.append_assoc]

theorem addsOutputs_of_shielded {output : TxOutput}
    (h : addShieldedOutput library message output assembly = .ok assembly') :
    AddsOutputs [output.amount] [] assembly assembly' := by
  obtain rfl := addShieldedOutput_eq_ok h
  exact ⟨rfl, List.map_append, (List.append_nil _).symm⟩

theorem addsOutputs_pushScript (scriptPubkey : Bytes) :
    AddsOutputs [] [⟨0, scriptPubkey⟩] assembly (pushScript scriptPubkey assembly) :=
  ⟨rfl, (List.append_nil _).symm, rfl⟩

theorem addRecipient_adds {recipient : QortalRecipient}
    (h : addRecipient library options recipient assembly = .ok assembly') :
    AddsOutputs recipient.shieldedAmounts (recipient.ownOutputs library) assembly assembly' := by
  cases recipient with
  | sapling address amount memo =>
    obtain ⟨field, -, h⟩ := bind_eq_ok h
    exact addsOutputs_of_shielded h
  | ironwood address amount memo =>
    simp only [addRecipient] at h
    split at h
    · cases h
    · obtain ⟨field, -, h⟩ := bind_eq_ok h
      exact addsOutputs_of_shielded h
  | transparent address amount =>
    simp only [addRecipient] at h
    split at h
    · cases h
    · obtain rfl := Except.ok.inj h
      exact ⟨rfl, (List.append_nil _).symm, rfl⟩

theorem scripts_of_eq {scriptPubkey : Option Bytes} {eachRecipient : Bool}
    (hscript : options.scriptPubkey = scriptPubkey)
    (h : options.scriptEachRecipient = eachRecipient) :
    options.scripts eachRecipient = scriptPubkey.toList.map (TxOut.mk 0) ∧
      options.scripts (!eachRecipient) = [] := by
  unfold OutputBuildOptions.scripts
  rw [if_pos h, h, hscript, if_neg (by simp)]
  exact ⟨rfl, rfl⟩

theorem addRecipients_adds (h : addRecipients library options recipients assembly = .ok assembly') :
    AddsOutputs (recipients.flatMap QortalRecipient.shieldedAmounts)
      (recipients.flatMap fun recipient => recipient.ownOutputs library ++ options.scripts true)
      assembly assembly' := by
  induction recipients generalizing assembly with
  | nil =>
    obtain rfl := Except.ok.inj h
    exact .nil
  | cons recipient rest ih =>
    unfold addRecipients at h
    obtain ⟨next, hnext, h⟩ := bind_eq_ok h
    have hadds := addRecipient_adds hnext
    rw [List.flatMap_cons, List.flatMap_cons]
    split at h
    · -- the script is paid behind each recipient
      rename_i heach
      obtain ⟨scriptPubkey, hscript, h⟩ := bind_eq_ok h
      have hboth := hadds.trans (addsOutputs_pushScript scriptPubkey)
      rw [List.append_nil] at hboth
      refine AddsOutputs.trans ?_ (ih h)
      rw [(scripts_of_eq (ShieldedBuilder.orMissing_eq_ok hscript) heach).1]
      exact hboth
    · -- the script is paid once, behind all of them
      rename_i heach
      refine AddsOutputs.trans ?_ (ih h)
      rw [show options.scripts true = [] from (scripts_of_eq rfl (Bool.eq_false_iff.mpr heach)).2,
        List.append_nil]
      exact hadds

/-- Recipients are paid behind what is paid already. -/
theorem addOutputsAndScript_adds
    (h : addOutputsAndScript library options recipients assembly = .ok assembly') :
    AddsOutputs (recipients.flatMap QortalRecipient.shieldedAmounts)
      (transparentOutputs library options recipients) assembly assembly' := by
  obtain ⟨paid, hpaid, h⟩ := bind_eq_ok h
  have hadds := addRecipients_adds hpaid
  unfold transparentOutputs
  split at h
  · rename_i heach
    obtain rfl := Except.ok.inj h
    rw [show options.scripts false = [] from (scripts_of_eq rfl heach).2, List.append_nil]
    exact hadds
  · rename_i heach
    have hscripts := fun {script} (hscript : options.scriptPubkey = script) =>
      (scripts_of_eq hscript (Bool.eq_false_iff.mpr heach)).1
    cases hscript : options.scriptPubkey with
    | some scriptPubkey =>
      rw [hscript] at h
      obtain rfl := Except.ok.inj h
      rw [hscripts hscript]
      have hboth := hadds.trans (addsOutputs_pushScript scriptPubkey)
      rw [List.append_nil] at hboth
      exact hboth
    | none =>
      rw [hscript] at h
      obtain rfl := Except.ok.inj h
      rw [hscripts hscript, Option.toList_none, List.map_nil, List.append_nil]
      exact hadds

/-- Scripts are paid nothing. -/
theorem sum_scripts (eachRecipient : Bool) :
    ((options.scripts eachRecipient).map TxOut.value).sum = 0 := by
  unfold OutputBuildOptions.scripts
  split
  · cases options.scriptPubkey with
    | none => rfl
    | some scriptPubkey => rfl
  · rfl

theorem sum_recipients (recipients : List QortalRecipient) :
    (recipients.flatMap QortalRecipient.shieldedAmounts).sum +
      ((transparentOutputs library options recipients).map TxOut.value).sum =
        recipientSum recipients := by
  unfold transparentOutputs
  rw [List.map_append, List.sum_append, sum_scripts, Nat.add_zero]
  induction recipients with
  | nil => rfl
  | cons recipient rest ih =>
    have hone : recipient.shieldedAmounts.sum +
        ((recipient.ownOutputs library).map TxOut.value).sum = recipient.amount := by
      cases recipient with
      | sapling address amount memo => exact List.sum_singleton
      | ironwood address amount memo => exact List.sum_singleton
      | transparent address amount => exact (Nat.zero_add _).trans List.sum_singleton
    rw [List.flatMap_cons, List.flatMap_cons, List.map_append, List.map_append, List.sum_append,
      List.sum_append, List.sum_append, sum_scripts, recipientSum, CoveringPrefix.total_cons]
    rw [recipientSum] at ih
    omega

/-- What a transaction pays is what its recipients are to get, and the change. -/
theorem QortalAssembly.Pays.paid {change : Nat}
    (h : assembly.Pays library options recipients change) :
    assembly.paid = recipientSum recipients + change := by
  have hchange : (if change = 0 then ([] : List Nat) else [change]).sum = change := by
    split
    · rename_i hzero
      exact hzero.symm
    · exact List.sum_singleton
  have hrecipients := @sum_recipients _ _ _ _ library options recipients
  unfold QortalAssembly.paid
  rw [h.shielded, h.transparent, List.sum_append, hchange]
  omega

/-! ## Funding -/

/-- A loop body adds one spend, of its note, and no output. -/
theorem addFundingSpend_eq_ok {note : CandidateNote Path}
    (h : addFundingSpend library plan note assembly = .ok assembly') :
    ∃ spend, TxSpend.Of note spend ∧
      assembly'.request = { assembly.request with spends := assembly.request.spends ++ [spend] } ∧
      assembly'.transparentVout = assembly.transparentVout := by
  unfold addFundingSpend at h
  cases hpool : note.noteType with
  | sapling =>
    rw [hpool] at h
    obtain ⟨diversifier, -, h⟩ := bind_eq_ok h
    obtain ⟨saplingNote, hnote, h⟩ := bind_eq_ok h
    obtain ⟨path, hpath, h⟩ := bind_eq_ok h
    obtain ⟨handed, hhanded, h⟩ := bind_eq_ok h
    obtain rfl := Except.ok.inj h
    exact ⟨.sapling _ saplingNote path, ⟨hpool, ShieldedBuilder.orMissing_eq_ok hnote,
      ShieldedBuilder.orMissing_eq_ok hpath⟩, ShieldedBuilder.handSpend_eq_ok hhanded, rfl⟩
  | ironwood =>
    rw [hpool] at h
    obtain ⟨ironwoodNote, hnote, h⟩ := bind_eq_ok h
    obtain ⟨path, hpath, h⟩ := bind_eq_ok h
    obtain ⟨key, -, h⟩ := bind_eq_ok h
    obtain ⟨handed, hhanded, h⟩ := bind_eq_ok h
    obtain rfl := Except.ok.inj h
    exact ⟨.ironwood key ironwoodNote path, ⟨hpool, ShieldedBuilder.orMissing_eq_ok hnote,
      ShieldedBuilder.orMissing_eq_ok hpath⟩, ShieldedBuilder.handSpend_eq_ok hhanded, rfl⟩

theorem addFundingSpends_eq_ok {notes : List (CandidateNote Path)}
    (h : addFundingSpends library plan notes assembly = .ok assembly') :
    ∃ spends, List.Forall₂ TxSpend.Of notes spends ∧
      assembly'.request = { assembly.request with spends := assembly.request.spends ++ spends } ∧
      assembly'.transparentVout = assembly.transparentVout := by
  induction notes generalizing assembly with
  | nil =>
    obtain rfl := Except.ok.inj h
    exact ⟨[], .nil, by rw [List.append_nil], rfl⟩
  | cons note rest ih =>
    unfold addFundingSpends at h
    obtain ⟨next, hnext, h⟩ := bind_eq_ok h
    obtain ⟨spend, hspend, hnextRequest, hnextVout⟩ := addFundingSpend_eq_ok hnext
    obtain ⟨spends, hspends, hrequest, hvout⟩ := ih h
    refine ⟨spend :: spends, .cons hspend hspends, ?_, hvout.trans hnextVout⟩
    rw [hrequest, hnextRequest]
    simp

theorem addFundingChange_adds {useOrchardChange : Bool} {activationHeight : Option Nat}
    {change : Nat} (hdust : change = 0 ∨ changeDustThreshold ≤ change)
    (h : addFundingChange library plan useOrchardChange activationHeight change assembly =
      .ok assembly') :
    AddsOutputs (if change = 0 then [] else [change]) [] assembly assembly' := by
  have hpositive : ¬ changeDustThreshold ≤ 0 := by decide
  unfold addFundingChange at h
  rcases hdust with rfl | henough
  · rw [if_neg hpositive] at h
    obtain rfl := Except.ok.inj h
    rw [if_pos rfl]
    exact .nil
  · have hsome : change ≠ 0 := by
      rintro rfl
      exact hpositive henough
    rw [if_pos henough] at h
    rw [if_neg hsome]
    -- Ironwood change, Sapling change to the internal address, or legacy Sapling change
    split at h
    · obtain ⟨key, -, h⟩ := bind_eq_ok h
      exact addsOutputs_of_shielded h
    split at h
    · exact addsOutputs_of_shielded h
    · obtain ⟨legacy, -, h⟩ := bind_eq_ok h
      exact addsOutputs_of_shielded h

/-- The options of a funding transaction. -/
def fundingOptions (library : QortalLibrary Path SaplingKey IronwoodKey PrivateKey)
    (plan : QortalP2shFundingPlan Path SaplingKey IronwoodKey) : OutputBuildOptions :=
  ⟨some plan.scriptPubkey, plan.scriptEachRecipient,
    library.outgoingViewingKey plan.defaultSaplingSpendingKey,
    plan.defaultIronwoodSpendingKey.map library.ironwoodOvk⟩

theorem assembleFunding_pays {amounts : AmountPlan Path}
    (h : assembleFunding library plan amounts = .ok assembly)
    (hdust : amounts.change = 0 ∨ changeDustThreshold ≤ amounts.change) :
    List.Forall₂ TxSpend.Of amounts.notes assembly.request.spends ∧
      assembly.Pays library (fundingOptions library plan) plan.recipients amounts.change := by
  unfold assembleFunding at h
  obtain ⟨_, -, h⟩ := bind_eq_ok h
  obtain ⟨saplingAnchor, -, h⟩ := bind_eq_ok h
  obtain ⟨ironwoodAnchor, -, h⟩ := bind_eq_ok h
  obtain ⟨spent, hspent, h⟩ := bind_eq_ok h
  obtain ⟨paid, hpaid, h⟩ := bind_eq_ok h
  obtain ⟨spends, hspends, hrequest, hvout⟩ := addFundingSpends_eq_ok hspent
  have hadds := (addOutputsAndScript_adds hpaid).trans (addFundingChange_adds hdust h)
  rw [List.append_nil] at hadds
  refine ⟨?_, ?_, ?_⟩
  · rw [hadds.spends, hrequest]
    exact hspends
  · rw [hadds.shielded, hrequest]
    rfl
  · rw [hadds.transparent, hvout]
    rfl

/-! ## Redemption and refund -/

/-- The options of a redemption. -/
def redeemOptions : OutputBuildOptions := ⟨none, false, List.replicate 32 0, none⟩

theorem assembleRedeem_pays (h : assembleRedeem library redeem = .ok assembly) :
    assembly.request.spends = [] ∧
      assembly.Pays library redeemOptions redeem.recipients 0 := by
  unfold assembleRedeem at h
  obtain ⟨_, -, h⟩ := bind_eq_ok h
  obtain ⟨ironwoodAnchor, -, h⟩ := bind_eq_ok h
  have hadds := addOutputsAndScript_adds h
  exact ⟨hadds.spends, hadds.shielded.trans (List.append_nil _).symm, hadds.transparent⟩

theorem amountFromU64_eq_ok {value amount : Nat}
    (h : amountFromU64 library message value = .ok amount) :
    amount = value ∧ value ≤ library.maxMoney := by
  unfold amountFromU64 at h
  split at h
  · cases h
  · rename_i hrange
    exact ⟨(Except.ok.inj h).symm, Nat.le_of_not_lt hrange⟩

/-- The funding output is worth the recipients and the fee, to the last unit. -/
theorem checkFundingCoin_eq_ok (h : checkFundingCoin library redeem = .ok ()) :
    redeem.fundingCoin.value = recipientSum redeem.recipients + redeem.fee ∧
      recipientSum redeem.recipients ≤ u64Max ∧
      recipientSum redeem.recipients + redeem.fee ≤ library.maxMoney := by
  unfold checkFundingCoin at h
  obtain ⟨fee, hfee, h⟩ := bind_eq_ok h
  obtain ⟨total, htotal, h⟩ := bind_eq_ok h
  obtain ⟨outputs, houtputs, h⟩ := bind_eq_ok h
  obtain ⟨rfl, -⟩ := amountFromU64_eq_ok hfee
  obtain ⟨rfl, hfits⟩ := recipientTotal_eq_ok htotal
  obtain ⟨rfl, -⟩ := amountFromU64_eq_ok houtputs
  split_ifs at h with hrange hless hmore
  exact ⟨by omega, hfits, Nat.le_of_not_lt hrange⟩

theorem orTransactionBuild_eq_ok {α : Type} {result : Except String α} {value : α}
    (h : orTransactionBuild message result = .ok value) : result = .ok value := by
  cases result with
  | error e => cases h
  | ok found => exact congrArg _ (Except.ok.inj h)

/-- **The balance of Qortal P2SH transactions.** A funding transaction spends the notes of its plan,
each once, pays every recipient its amount, the scripts nothing and the change; its notes are worth
what the recipients are paid, the change and the fee, which only dust joins. A redemption or refund
spends the funding output alone, which is worth the recipients and the fee. No sum exceeds what
holds it. -/
theorem qortal_p2sh_balances (library : QortalLibrary Path SaplingKey IronwoodKey PrivateKey) :
    (∀ (plan : QortalP2shFundingPlan Path SaplingKey IronwoodKey) signed,
      buildQortalP2shFundingTransaction library plan = .ok signed →
      ∃ amounts assembly tx, planFunding plan = .ok amounts ∧
        assembleFunding library plan amounts = .ok assembly ∧
        library.finishFunding assembly = .ok tx ∧ tx.txid = signed.txid ∧
        signed.spentNotes = amounts.notes.map ShieldedBuilder.spentNote ∧
        FundingAccounts plan amounts ∧
        List.Forall₂ TxSpend.Of amounts.notes assembly.request.spends ∧
        assembly.Pays library (fundingOptions library plan) plan.recipients amounts.change ∧
        assembly.paid = recipientSum plan.recipients + amounts.change ∧
        ((∀ note ∈ plan.availableNotes, note.ValueOf) →
          (assembly.request.spends.map TxSpend.value).sum = assembly.paid + amounts.fee)) ∧
    ∀ (redeem : QortalP2shRedeemPlan PrivateKey) signed,
      buildQortalP2shRedeemTransaction library redeem = .ok signed →
      ∃ assembly input scriptSig tx, assembleRedeem library redeem = .ok assembly ∧
        library.finishRedeem assembly input scriptSig = .ok tx ∧ tx.txid = signed.txid ∧
        input.fundingTxid = redeem.fundingTxid ∧ input.fundingCoin = redeem.fundingCoin ∧
        assembly.request.spends = [] ∧
        assembly.Pays library redeemOptions redeem.recipients 0 ∧
        assembly.paid = recipientSum redeem.recipients ∧
        redeem.fundingCoin.value = recipientSum redeem.recipients + redeem.fee ∧
        recipientSum redeem.recipients ≤ u64Max ∧
        recipientSum redeem.recipients + redeem.fee ≤ library.maxMoney := by
  constructor
  · intro plan signed h
    unfold buildQortalP2shFundingTransaction at h
    obtain ⟨amounts, hamounts, h⟩ := bind_eq_ok h
    obtain ⟨assembly, hassembly, h⟩ := bind_eq_ok h
    obtain ⟨_, -, h⟩ := bind_eq_ok h
    obtain ⟨tx, htx, h⟩ := bind_eq_ok h
    obtain ⟨rawTx, -, h⟩ := bind_eq_ok h
    obtain rfl := Except.ok.inj h
    have haccounts := planFunding_accounts hamounts
    obtain ⟨hspends, hpays⟩ := assembleFunding_pays hassembly haccounts.change
    refine ⟨amounts, assembly, tx, hamounts, hassembly, orTransactionBuild_eq_ok htx, rfl, rfl,
      haccounts, hspends, hpays, hpays.paid, fun hvalues => ?_⟩
    rw [sum_value_of_forall₂ hspends
      (fun note hnote => hvalues note (haccounts.offered.subset hnote)), hpays.paid]
    exact haccounts.balance
  · intro redeem signed h
    unfold buildQortalP2shRedeemTransaction at h
    obtain ⟨scriptCode, -, h⟩ := bind_eq_ok h
    obtain ⟨assembly, hassembly, h⟩ := bind_eq_ok h
    obtain ⟨_, hchecked, h⟩ := bind_eq_ok h
    obtain ⟨_, -, h⟩ := bind_eq_ok h
    obtain ⟨signature, -, h⟩ := bind_eq_ok h
    obtain ⟨tx, htx, h⟩ := bind_eq_ok h
    obtain ⟨rawTx, -, h⟩ := bind_eq_ok h
    obtain rfl := Except.ok.inj h
    obtain ⟨hspends, hpays⟩ := assembleRedeem_pays hassembly
    exact ⟨assembly, _, _, tx, hassembly, orTransactionBuild_eq_ok htx, rfl, rfl, rfl, hspends,
      hpays, hpays.paid, checkFundingCoin_eq_ok hchecked⟩

end Balance

/-- Libraries that build whatever they are handed. -/
def qortalLibrary : QortalLibrary Unit Unit Unit Unit where
  toTxLibrary := balancingLibrary
  suggestsV6 := fun activationHeight height => activationHeight.any (· ≤ height)
  refusesAnchor := fun _ => none
  addressScript := fun address => [0xa9, 0x14] ++ address ++ [0x87]
  finishFunding := fun _ => .ok ⟨List.replicate 32 9, .ok [1, 2, 3]⟩
  signInput := fun _ _ _ => .ok [48, 6, 2, 1, 1, 2, 1, 1]
  finishRedeem := fun _ _ _ => .ok ⟨List.replicate 32 8, .ok [1, 2]⟩

/-- A swap of 60000, funded out of a note that leaves dust. -/
def swapFunding : QortalP2shFundingPlan Unit Unit Unit where
  networkActivationHeight := none
  defaultSaplingSpendingKey := ()
  defaultIronwoodSpendingKey := none
  saplingSpendingKeysById := fun _ => none
  ironwoodSpendingKeysById := fun _ => none
  availableNotes := [spendableNote 75000]
  targetHeight := 20
  ironwoodActivationHeight := none
  ironwoodAnchor := none
  changeDiversifierIndex := 0
  recipients := [.transparent (List.replicate 20 1) 60000]
  fee := 10000
  scriptPubkey := [0x6a, 0x02, 0x01, 0x02]
  scriptEachRecipient := false

/-- The plan that redeems the output of the funding. -/
def swapRedemption : QortalP2shRedeemPlan Unit where
  networkActivationHeight := none
  targetHeight := 30
  ironwoodActivationHeight := none
  ironwoodAnchor := none
  fundingTxid := List.replicate 32 9
  fundingCoin := ⟨60000, [0xa9, 0x14] ++ List.replicate 20 1 ++ [0x87]⟩
  recipients := [.sapling (List.replicate 43 1) 50000 none]
  fee := 10000
  redeemScript := [0x51, 0x51]
  lockTime := 0
  secret := List.replicate 32 5
  privkey := ()

theorem swap_is_built :
    (buildQortalP2shFundingTransaction qortalLibrary swapFunding).isOk = true ∧
    (buildQortalP2shRedeemTransaction qortalLibrary swapRedemption).isOk = true := by
  decide +kernel

theorem exists_of_isOk {ε α : Type} {result : Except ε α} (h : result.isOk = true) :
    ∃ value, result = .ok value := by
  cases result with
  | error e => cases h
  | ok value => exact ⟨value, rfl⟩

/-- The dust of the swap joins its fee, and the redemption pays out all of it. -/
theorem qortal_p2sh_balances_swap :
    (∃ signed amounts assembly,
      buildQortalP2shFundingTransaction qortalLibrary swapFunding = .ok signed ∧
      assembleFunding qortalLibrary swapFunding amounts = .ok assembly ∧
      (assembly.request.spends.map TxSpend.value).sum = assembly.paid + 15000) ∧
    ∃ signed assembly, buildQortalP2shRedeemTransaction qortalLibrary swapRedemption = .ok signed ∧
      assembleRedeem qortalLibrary swapRedemption = .ok assembly ∧
      assembly.paid + 10000 = 60000 := by
  obtain ⟨hfunding, hredemption⟩ := swap_is_built
  obtain ⟨funded, hfunded⟩ := exists_of_isOk hfunding
  obtain ⟨redeemed, hredeemed⟩ := exists_of_isOk hredemption
  constructor
  · obtain ⟨amounts, assembly, -, hamounts, hassembly, -, -, -, -, -, -, -, hvalues⟩ :=
      (qortal_p2sh_balances qortalLibrary).1 swapFunding funded hfunded
    have hfee : amounts.fee = 15000 := by
      have hplan : (planFunding swapFunding).map AmountPlan.fee = .ok 15000 := by decide +kernel
      rw [hamounts] at hplan
      exact Except.ok.inj hplan
    rw [hfee] at hvalues
    refine ⟨funded, amounts, assembly, hfunded, hassembly, hvalues fun note hnote => ?_⟩
    rw [List.mem_singleton.mp hnote]
    exact spendableNote_valueOf 75000
  · obtain ⟨assembly, -, -, -, hassembly, -, -, -, -, -, -, hpaid, hcoin, -⟩ :=
      (qortal_p2sh_balances qortalLibrary).2 swapRedemption redeemed hredeemed
    exact ⟨redeemed, assembly, hredeemed, hassembly, hpaid ▸ hcoin.symm⟩

end StashiWallet
