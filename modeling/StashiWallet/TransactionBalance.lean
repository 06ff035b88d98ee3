import StashiWallet.ShieldedBuilder

/-!
# The balance of a transaction

What a builder spends is what it pays, keeps and leaves as fee, unless its outputs wrap around.
-/

namespace StashiWallet

section Balance

variable {Path SaplingKey IronwoodKey : Type}

/-- The spend is one of the note. -/
def TxSpend.Of (note : CandidateNote Path) : TxSpend Path SaplingKey IronwoodKey → Prop
  | .sapling _ saplingNote path =>
    note.noteType = .sapling ∧ note.note = some saplingNote ∧ note.merklePath = some path
  | .ironwood _ ironwoodNote path =>
    note.noteType = .ironwood ∧ note.ironwoodNote = some ironwoodNote ∧
      note.ironwoodMerklePath = some path

/-- The request spends the notes of a plan, one by one, and pays the amounts and the change. -/
structure TxRequest.Carries (plan : AmountPlan Path) (amounts : List Nat)
    (request : TxRequest Path SaplingKey IronwoodKey) : Prop where
  spends : List.Forall₂ TxSpend.Of plan.notes request.spends
  outputs : request.outputs.map TxOutput.amount =
    amounts ++ if plan.change = 0 then [] else [plan.change]

namespace ShieldedBuilder

variable {library : TxLibrary Path SaplingKey IronwoodKey}
  {inputs : BuildAndSignMultiInputs Path SaplingKey IronwoodKey} {builder : ShieldedBuilder}
  {plan : AmountPlan Path} {message : String}
  {request request' : TxRequest Path SaplingKey IronwoodKey}

theorem orMissing_eq_ok {α : Type} {option : Option α} {value : α}
    (h : orMissing message option = .ok value) : option = some value := by
  cases option with
  | none => cases h
  | some found => exact congrArg some (Except.ok.inj h)

theorem handSpend_eq_ok {spend : TxSpend Path SaplingKey IronwoodKey}
    (h : handSpend library message spend request = .ok request') :
    request' = { request with spends := request.spends ++ [spend] } := by
  unfold handSpend at h
  cases hrefused : library.refusesSpend request spend with
  | some error =>
    rw [hrefused] at h
    cases h
  | none =>
    rw [hrefused] at h
    exact (Except.ok.inj h).symm

theorem handOutput_eq_ok {outOfRange : String} {output : TxOutput}
    (h : handOutput library outOfRange message output request = .ok request') :
    request' = { request with outputs := request.outputs ++ [output] } := by
  unfold handOutput at h
  by_cases hrange : library.maxMoney < output.amount
  · rw [if_pos hrange] at h
    cases h
  rw [if_neg hrange] at h
  cases hrefused : library.refusesOutput request output with
  | some error =>
    rw [hrefused] at h
    cases h
  | none =>
    rw [hrefused] at h
    exact (Except.ok.inj h).symm

/-- A loop body adds one spend, of its note. -/
theorem addSpend_eq_ok {note : CandidateNote Path}
    {assembly assembly' : Assembly Path SaplingKey IronwoodKey}
    (h : addSpend library inputs note assembly = .ok assembly') :
    ∃ spend, TxSpend.Of note spend ∧ assembly'.request =
      { assembly.request with spends := assembly.request.spends ++ [spend] } := by
  unfold addSpend at h
  cases hpool : note.noteType with
  | sapling =>
    rw [hpool] at h
    dsimp only at h
    unfold addSaplingSpend at h
    obtain ⟨diversifier, -, h⟩ := bind_eq_ok h
    obtain ⟨saplingNote, hnote, h⟩ := bind_eq_ok h
    obtain ⟨path, hpath, h⟩ := bind_eq_ok h
    obtain ⟨handed, hhanded, h⟩ := bind_eq_ok h
    obtain rfl := Except.ok.inj h
    exact ⟨.sapling _ saplingNote path,
      ⟨hpool, orMissing_eq_ok hnote, orMissing_eq_ok hpath⟩, handSpend_eq_ok hhanded⟩
  | ironwood =>
    rw [hpool] at h
    dsimp only at h
    unfold addIronwoodSpend at h
    obtain ⟨ironwoodNote, hnote, h⟩ := bind_eq_ok h
    obtain ⟨path, hpath, h⟩ := bind_eq_ok h
    obtain ⟨key, -, h⟩ := bind_eq_ok h
    obtain ⟨handed, hhanded, h⟩ := bind_eq_ok h
    obtain rfl := Except.ok.inj h
    exact ⟨.ironwood key ironwoodNote path,
      ⟨hpool, orMissing_eq_ok hnote, orMissing_eq_ok hpath⟩, handSpend_eq_ok hhanded⟩

theorem addSpends_eq_ok {notes : List (CandidateNote Path)}
    {assembly assembly' : Assembly Path SaplingKey IronwoodKey}
    (h : addSpends library inputs notes assembly = .ok assembly') :
    ∃ spends, List.Forall₂ TxSpend.Of notes spends ∧ assembly'.request =
      { assembly.request with spends := assembly.request.spends ++ spends } := by
  induction notes generalizing assembly with
  | nil =>
    obtain rfl := Except.ok.inj h
    exact ⟨[], .nil, by rw [List.append_nil]⟩
  | cons note rest ih =>
    unfold addSpends at h
    obtain ⟨next, hnext, h⟩ := bind_eq_ok h
    obtain ⟨spend, hspend, hrequest⟩ := addSpend_eq_ok hnext
    obtain ⟨spends, hspends, heq⟩ := ih h
    refine ⟨spend :: spends, .cons hspend hspends, ?_⟩
    rw [heq, hrequest]
    simp

theorem addOutputs_eq_ok {outputs : List ShieldedOutput}
    (h : addOutputs library inputs outputs request = .ok request') :
    request'.spends = request.spends ∧ request'.outputs.map TxOutput.amount =
      request.outputs.map TxOutput.amount ++
        outputs.map (fun output => output.amount.toNat) := by
  induction outputs generalizing request with
  | nil =>
    obtain rfl := Except.ok.inj h
    exact ⟨rfl, by simp⟩
  | cons output rest ih =>
    cases output with
    | sapling address amount memo =>
      unfold addOutputs at h
      obtain ⟨field, -, h⟩ := bind_eq_ok h
      obtain ⟨next, hnext, h⟩ := bind_eq_ok h
      obtain rfl := handOutput_eq_ok hnext
      obtain ⟨hspends, houtputs⟩ := ih h
      exact ⟨hspends, by rw [houtputs]; simp [ShieldedOutput.amount]⟩
    | ironwood address amount memo =>
      unfold addOutputs at h
      obtain ⟨field, -, h⟩ := bind_eq_ok h
      obtain ⟨next, hnext, h⟩ := bind_eq_ok h
      obtain rfl := handOutput_eq_ok hnext
      obtain ⟨hspends, houtputs⟩ := ih h
      exact ⟨hspends, by rw [houtputs]; simp [ShieldedOutput.amount]⟩

/-- The change output pays the change of the plan, when there is enough of it. -/
theorem addChange_eq_ok {legacyChange : Option (Bytes × Bytes)}
    (h : addChange library inputs builder plan legacyChange request = .ok request') :
    request'.spends = request.spends ∧ request'.outputs.map TxOutput.amount =
      request.outputs.map TxOutput.amount ++
        if changeDustThreshold ≤ plan.change then [plan.change] else [] := by
  have hpaid : ∀ {outOfRange message : String} {output : TxOutput}, output.amount = plan.change →
      handOutput library outOfRange message output request = .ok request' →
      request'.spends = request.spends ∧ request'.outputs.map TxOutput.amount =
        request.outputs.map TxOutput.amount ++ [plan.change] := by
    intro _ _ output hamount hhanded
    obtain rfl := handOutput_eq_ok hhanded
    exact ⟨rfl, by rw [List.map_append, List.map_singleton, hamount]⟩
  unfold addChange at h
  by_cases hchange : changeDustThreshold ≤ plan.change
  · rw [if_pos hchange] at h ⊢
    split at h
    · obtain ⟨key, -, h⟩ := bind_eq_ok h
      exact hpaid rfl h
    split at h
    · exact hpaid rfl h
    · obtain ⟨⟨ovk, address⟩, -, h⟩ := bind_eq_ok h
      exact hpaid rfl h
  · rw [if_neg hchange] at h ⊢
    obtain rfl := Except.ok.inj h
    exact ⟨rfl, by rw [List.append_nil]⟩

theorem assemble_carries {assembly : Assembly Path SaplingKey IronwoodKey}
    (h : assemble library inputs builder plan = .ok assembly)
    (hchange : plan.change = 0 ∨ changeDustThreshold ≤ plan.change) :
    assembly.request.Carries plan (builder.outputs.map (fun output => output.amount.toNat)) := by
  unfold assemble at h
  obtain ⟨saplingAnchor, -, h⟩ := bind_eq_ok h
  obtain ⟨ironwoodAnchor, -, h⟩ := bind_eq_ok h
  obtain ⟨_, -, h⟩ := bind_eq_ok h
  obtain ⟨spent, hspent, h⟩ := bind_eq_ok h
  obtain ⟨paid, hpaid, h⟩ := bind_eq_ok h
  obtain ⟨changed, hchanged, h⟩ := bind_eq_ok h
  obtain rfl := Except.ok.inj h
  obtain ⟨spends, hspends, heq⟩ := addSpends_eq_ok hspent
  obtain ⟨hsame, houtputs⟩ := addOutputs_eq_ok hpaid
  obtain ⟨hkept, hall⟩ := addChange_eq_ok hchanged
  constructor
  · rw [hkept, hsame, heq]
    exact hspends
  · rw [hall, houtputs, heq]
    have hdust : ¬ changeDustThreshold ≤ 0 := by decide
    rcases hchange with hzero | henough
    · rw [hzero, if_pos rfl, if_neg hdust]
      rfl
    · have hpositive : plan.change ≠ 0 := by
        intro hzero
        exact hdust (hzero ▸ henough)
      rw [if_pos henough, if_neg hpositive]
      rfl

theorem select_covers {availableNotes : List (CandidateNote Path)} {targetAmount fee : Nat}
    {selection : SelectionResult Path}
    (h : builder.select availableNotes targetAmount fee = .ok selection) :
    NoteSelector.Covers availableNotes (targetAmount + fee) selection := by
  unfold select at h
  by_cases hextra : 0 < builder.autoConsolidationExtraLimit
  · rw [if_pos hextra] at h
    exact NoteSelector.selectNotesWithConsolidation_covers h
  · rw [if_neg hextra] at h
    exact NoteSelector.selectNotes_covers h

end ShieldedBuilder

/-- The amounts and the notes of a pending transaction. -/
theorem planPending_accounts {builder : TransactionBuilder}
    {availableNotes : List (CandidateNote Path)} {plan : AmountPlan Path}
    (h : builder.planPending availableNotes = .ok plan) :
    plan.Accounts availableNotes (builder.outputs.map (fun output => output.amount.toNat)) ↔
      (builder.outputs.map (fun output => output.amount.toNat)).sum < 2 ^ 64 := by
  have hamounts : (builder.outputs.map TransactionOutput.amount).map UInt64.toNat =
      builder.outputs.map (fun output => output.amount.toNat) := List.map_map
  rw [← hamounts]
  exact accounts_iff_of_planAmounts
    (fun _ _ _ hselection => NoteSelector.selectNotes_covers hselection) h

/-- The amounts and the notes of a signed transaction. -/
theorem planShielded_accounts {builder : ShieldedBuilder}
    {availableNotes : List (CandidateNote Path)} {plan : AmountPlan Path}
    (h : builder.planShielded availableNotes = .ok plan) :
    plan.Accounts availableNotes (builder.outputs.map (fun output => output.amount.toNat)) ↔
      (builder.outputs.map (fun output => output.amount.toNat)).sum < 2 ^ 64 := by
  have hamounts : (builder.outputs.map ShieldedOutput.amount).map UInt64.toNat =
      builder.outputs.map (fun output => output.amount.toNat) := List.map_map
  rw [← hamounts]
  exact accounts_iff_of_planAmounts
    (fun _ _ _ hselection => ShieldedBuilder.select_covers hselection) h

/-- Wrapped or not, the change of a plan is no dust. -/
theorem change_of_planAmounts {amounts : List UInt64} {hasMemo : Bool}
    {feeOverride : Option Nat} {select : Nat → Nat → Except BuildError (SelectionResult Path)}
    {plan : AmountPlan Path} (h : planAmounts amounts hasMemo feeOverride select = .ok plan) :
    plan.change = 0 ∨ changeDustThreshold ≤ plan.change := by
  obtain ⟨fee, selection, effective, -, hhigh, -, -, heffective, rfl⟩ := planAmounts_eq_ok h
  exact (applyDustPolicy_spec heffective hhigh).2.2.2

/-- What a signed transaction was built from. -/
theorem buildAndSignMulti_eq_ok {library : TxLibrary Path SaplingKey IronwoodKey}
    {inputs : BuildAndSignMultiInputs Path SaplingKey IronwoodKey} {builder : ShieldedBuilder}
    {signed : SignedShieldedTransaction}
    (h : ShieldedBuilder.buildAndSignMulti library inputs builder = .ok signed) :
    ∃ plan assembly tx, builder.planShielded inputs.availableNotes = .ok plan ∧
      ShieldedBuilder.assemble library inputs builder plan = .ok assembly ∧
      library.build assembly.request assembly.saplingExtsks assembly.orchardSaks plan.fee =
        .ok tx ∧ tx.txid = signed.txid ∧
      signed.spentNotes = plan.notes.map ShieldedBuilder.spentNote := by
  unfold ShieldedBuilder.buildAndSignMulti at h
  obtain ⟨plan, hplan, h⟩ := bind_eq_ok h
  obtain ⟨assembly, hassembly, h⟩ := bind_eq_ok h
  by_cases hrange : library.maxMoney < plan.fee
  · rw [if_pos hrange] at h
    cases h
  rw [if_neg hrange] at h
  obtain ⟨tx, htx, h⟩ := bind_eq_ok h
  obtain ⟨rawTx, -, h⟩ := bind_eq_ok h
  obtain rfl := Except.ok.inj h
  refine ⟨plan, assembly, tx, hplan, hassembly, ?_, rfl, rfl⟩
  unfold orTransactionBuild at htx
  cases hbuild : library.build assembly.request assembly.saplingExtsks assembly.orchardSaks
      plan.fee with
  | error e =>
    rw [hbuild] at htx
    cases htx
  | ok built =>
    rw [hbuild] at htx
    exact congrArg _ (Except.ok.inj htx)

/-- The value that the library sees in a spend. -/
def TxSpend.value : TxSpend Path SaplingKey IronwoodKey → Nat
  | .sapling _ note _ => note.value
  | .ironwood _ note _ => note.value

/-- The library builds only what balances. -/
def TxLibrary.Balances (library : TxLibrary Path SaplingKey IronwoodKey) : Prop :=
  ∀ request saplingExtsks orchardSaks fee tx,
    library.build request saplingExtsks orchardSaks fee = .ok tx →
    (request.spends.map TxSpend.value).sum = (request.outputs.map TxOutput.amount).sum + fee

/-- The note has the value that the library sees. -/
def CandidateNote.ValueOf (note : CandidateNote Path) : Prop :=
  (∀ saplingNote, note.note = some saplingNote → saplingNote.value = note.value) ∧
    ∀ ironwoodNote, note.ironwoodNote = some ironwoodNote → ironwoodNote.value = note.value

theorem sum_value_of_forall₂ {notes : List (CandidateNote Path)}
    {spends : List (TxSpend Path SaplingKey IronwoodKey)}
    (hspends : List.Forall₂ TxSpend.Of notes spends) (hvalues : ∀ note ∈ notes, note.ValueOf) :
    (spends.map TxSpend.value).sum = (notes.map (fun note => note.value)).sum := by
  induction hspends with
  | nil => rfl
  | @cons note spend notes spends hspend _ ih =>
    have hrest := ih fun note hnote => hvalues note (List.mem_cons_of_mem _ hnote)
    obtain ⟨hsapling, hironwood⟩ := hvalues note List.mem_cons_self
    have hvalue : spend.value = note.value := by
      cases spend with
      | sapling key saplingNote path => exact hsapling saplingNote hspend.2.1
      | ironwood key ironwoodNote path => exact hironwood ironwoodNote hspend.2.1
    rw [List.map_cons, List.map_cons, List.sum_cons, List.sum_cons, hvalue, hrest]

/-- A library that builds only what balances builds nothing whose outputs wrap. -/
theorem no_wrap_of_balances {library : TxLibrary Path SaplingKey IronwoodKey}
    (hbalances : library.Balances) {inputs : BuildAndSignMultiInputs Path SaplingKey IronwoodKey}
    (hvalues : ∀ note ∈ inputs.availableNotes, note.ValueOf) {builder : ShieldedBuilder}
    {signed : SignedShieldedTransaction}
    (h : ShieldedBuilder.buildAndSignMulti library inputs builder = .ok signed) :
    (builder.outputs.map (fun output => output.amount.toNat)).sum < 2 ^ 64 := by
  obtain ⟨plan, assembly, tx, hplan, hassembly, hbuild, -, -⟩ := buildAndSignMulti_eq_ok h
  obtain ⟨fee, selection, effective, -, hhigh, hselection, -, heffective, rfl⟩ :=
    planAmounts_eq_ok hplan
  have hcovers := ShieldedBuilder.select_covers hselection
  have hcarries := ShieldedBuilder.assemble_carries hassembly (change_of_planAmounts hplan)
  have hsum := hbalances _ _ _ _ _ hbuild
  rw [sum_value_of_forall₂ hcarries.spends
    (fun note hnote => hvalues note (hcovers.offered.subset hnote)), hcarries.outputs,
    List.sum_append] at hsum
  have htotal := hcovers.total
  have hfits := hcovers.fits
  unfold u64Max at hfits
  dsimp only at hsum
  omega

/-- **The balance of a transaction.** A pending or signed transaction accounts for its notes exactly
when the sum of its outputs does not wrap: then no sum does, no note is used twice, the change is no
dust and the fee is valid. Either way a signed transaction spends the notes of its plan, each once,
and pays its outputs and its change; a library that builds only what balances leaves no other. -/
theorem transaction_balances (library : TxLibrary Path SaplingKey IronwoodKey) :
    (∀ random (builder : TransactionBuilder) (availableNotes : List (CandidateNote Path)) pending,
      builder.buildPending random availableNotes = .ok pending →
      ∃ plan, builder.planPending availableNotes = .ok plan ∧
        pending.inputValue = plan.inputValue ∧ pending.outputValue = plan.outputValue ∧
        pending.fee = plan.fee ∧ pending.change = plan.change ∧
        (plan.Accounts availableNotes (pending.outputs.map (fun output => output.amount.toNat)) ↔
          (builder.outputs.map (fun output => output.amount.toNat)).sum < 2 ^ 64)) ∧
    ∀ inputs builder signed,
      ShieldedBuilder.buildAndSignMulti library inputs builder = .ok signed →
      ∃ plan assembly tx, builder.planShielded inputs.availableNotes = .ok plan ∧
        ShieldedBuilder.assemble library inputs builder plan = .ok assembly ∧
        library.build assembly.request assembly.saplingExtsks assembly.orchardSaks plan.fee =
          .ok tx ∧ tx.txid = signed.txid ∧
        signed.spentNotes = plan.notes.map ShieldedBuilder.spentNote ∧
        assembly.request.Carries plan (builder.outputs.map (fun output => output.amount.toNat)) ∧
        (plan.Accounts inputs.availableNotes
            (builder.outputs.map (fun output => output.amount.toNat)) ↔
          (builder.outputs.map (fun output => output.amount.toNat)).sum < 2 ^ 64) ∧
        (library.Balances → (∀ note ∈ inputs.availableNotes, note.ValueOf) →
          plan.Accounts inputs.availableNotes
            (builder.outputs.map (fun output => output.amount.toNat))) := by
  constructor
  · intro random builder availableNotes pending h
    unfold TransactionBuilder.buildPending at h
    obtain ⟨plan, hplan, h⟩ := bind_eq_ok h
    obtain rfl := Except.ok.inj h
    exact ⟨plan, hplan, rfl, rfl, rfl, rfl, planPending_accounts hplan⟩
  · intro inputs builder signed h
    obtain ⟨plan, assembly, tx, hplan, hassembly, hbuild, htxid, hspent⟩ :=
      buildAndSignMulti_eq_ok h
    have hcarries := ShieldedBuilder.assemble_carries hassembly (change_of_planAmounts hplan)
    have haccounts := planShielded_accounts hplan
    exact ⟨plan, assembly, tx, hplan, hassembly, hbuild, htxid, hspent, hcarries, haccounts,
      fun hbalances hvalues => haccounts.mpr (no_wrap_of_balances hbalances hvalues h)⟩

end Balance

/-- A Sapling note of a wallet that can be spent. -/
def spendableNote (value : Nat) : CandidateNote Unit where
  noteType := .sapling
  value := value
  commitment := []
  nullifier := none
  height := 10
  txid := List.replicate 32 7
  outputIndex := 0
  keyId := none
  merklePath := some ()
  saplingPosition := some 0
  diversifier := some (List.replicate 11 1)
  note := some ⟨List.replicate 43 1, value, 2, List.replicate 32 3⟩
  ironwoodAnchor := none
  ironwoodPosition := none
  ironwoodNote := none
  ironwoodMerklePath := none
  autoConsolidationEligible := false

theorem spendableNote_valueOf (value : Nat) : (spendableNote value).ValueOf := by
  constructor
  · intro saplingNote hnote
    obtain rfl := Option.some.inj hnote
    rfl
  · intro ironwoodNote hnote
    cases hnote

/-- Outputs whose amounts add up to `2 ^ 64 + 50000`. -/
def wrappingBuilder : TransactionBuilder :=
  ⟨[⟨List.replicate 43 1, 9223372036854775808, none⟩, ⟨List.replicate 43 2, 9223372036854775808,
    none⟩, ⟨List.replicate 43 1, 50000, none⟩], none⟩

/-- **A sum that wraps.** Two outputs of 2^63 and one of 50000 come to 50000, and a note of 60000
pays for them. -/
theorem wrapping_outputs_are_paid :
    (TransactionBuilder.addOutput (List.replicate 43 1) 9223372036854775808 none ⟨[], none⟩ >>=
      TransactionBuilder.addOutput (List.replicate 43 2) 9223372036854775808 none >>=
      TransactionBuilder.addOutput (List.replicate 43 1) 50000 none) = .ok wrappingBuilder ∧
    wrappingBuilder.buildPending [] [spendableNote 60000] =
      .ok ⟨"pending-", wrappingBuilder.outputs, 60000, 50000, 10000, 0⟩ ∧
    60000 ≠ (wrappingBuilder.outputs.map (fun output => output.amount.toNat)).sum + 0 + 10000 :=
  ⟨rfl, rfl, by decide⟩

/-- A library that builds what balances. -/
def balancingLibrary : TxLibrary Unit Unit Unit where
  maxMoney := 2100000000000000
  memoBytes := ⟨0xF6 :: List.replicate 511 0,
    fun bytes => if bytes.length ≤ 512 then .ok (bytes ++ List.replicate (512 - bytes.length) 0)
      else .error "TooLong"⟩
  saplingProver := .ok ()
  saplingAnchor := fun _ _ => List.replicate 32 5
  emptySaplingAnchor := List.replicate 32 0
  outgoingViewingKey := fun _ => List.replicate 32 6
  addressFromDiversifier := fun _ _ => some (List.replicate 43 1)
  deriveInternal := id
  internalAddress := fun _ _ => List.replicate 43 2
  ironwoodOvk := fun _ => List.replicate 32 8
  addressAtInternal := fun _ _ => List.replicate 43 3
  refusesSpend := fun _ _ => none
  refusesOutput := fun _ _ => none
  build := fun request _ _ fee =>
    if (request.spends.map TxSpend.value).sum = (request.outputs.map TxOutput.amount).sum + fee then
      .ok ⟨List.replicate 32 9, .ok [1, 2, 3]⟩
    else .error "ChangeRequired"

theorem balancingLibrary_balances : balancingLibrary.Balances := by
  intro request saplingExtsks orchardSaks fee tx h
  by_cases hbalance : (request.spends.map TxSpend.value).sum =
      (request.outputs.map TxOutput.amount).sum + fee
  · exact hbalance
  · unfold balancingLibrary at h
    dsimp only at h
    rw [if_neg hbalance] at h
    cases h

/-- A wallet with one note, of one key. -/
def paymentInputs (value : Nat) : BuildAndSignMultiInputs Unit Unit Unit :=
  ⟨(), none, fun _ => none, fun _ => none, [spendableNote value], 20, none, 0⟩

def paymentBuilder : ShieldedBuilder := ⟨[.sapling (List.replicate 43 1) 45000 none], none, none, 0⟩

theorem payment_is_signed : (ShieldedBuilder.buildAndSignMulti balancingLibrary
    (paymentInputs 90000) paymentBuilder).isOk = true := by decide +kernel

def paymentOutputs : List TransactionOutput := [⟨List.replicate 43 1, 45000, none⟩]

theorem payment_is_pending : (⟨paymentOutputs, none⟩ : TransactionBuilder).buildPending []
    [spendableNote 60000] = .ok ⟨"pending-", paymentOutputs, 60000, 45000, 15000, 0⟩ := by
  decide +kernel

/-- A payment that is pending, and one that is signed. -/
theorem transaction_balances_payment :
    (∃ plan, (⟨paymentOutputs, none⟩ : TransactionBuilder).planPending [spendableNote 60000] =
      .ok plan ∧ plan.Accounts [spendableNote 60000] [45000] ∧ plan.fee = 15000) ∧
    ∃ signed plan, ShieldedBuilder.buildAndSignMulti balancingLibrary (paymentInputs 90000)
        paymentBuilder = .ok signed ∧
      paymentBuilder.planShielded [spendableNote 90000] = .ok plan ∧
      plan.Accounts [spendableNote 90000] [45000] := by
  have hamounts : paymentOutputs.map (fun output => output.amount.toNat) = [45000] := by decide
  have hshielded : paymentBuilder.outputs.map (fun output => output.amount.toNat) = [45000] := by
    decide
  constructor
  · obtain ⟨plan, hplanned, -, -, hfee, -, haccounts⟩ :=
      (transaction_balances balancingLibrary).1 _ _ _ _ payment_is_pending
    rw [hamounts] at haccounts
    have hsmall : ([45000] : List Nat).sum < 2 ^ 64 := by simp
    exact ⟨plan, hplanned, haccounts.mpr hsmall, hfee.symm⟩
  · cases hsigned : ShieldedBuilder.buildAndSignMulti balancingLibrary (paymentInputs 90000)
        paymentBuilder with
    | error e =>
      have hok := payment_is_signed
      rw [hsigned] at hok
      cases hok
    | ok signed =>
      obtain ⟨plan, -, -, hplanned, -, -, -, -, -, -, haccounts⟩ :=
        (transaction_balances balancingLibrary).2 _ _ _ hsigned
      have hplan := haccounts balancingLibrary_balances fun note hnote => by
        rw [List.mem_singleton.mp hnote]
        exact spendableNote_valueOf 90000
      exact ⟨signed, plan, rfl, hplanned, hshielded ▸ hplan⟩

end StashiWallet
