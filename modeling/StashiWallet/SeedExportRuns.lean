import StashiWallet.SeedExport

/-!
# Which seed is released

The wallet check of a completing operation and the release of the seed are sections of their own.
Between them the request may be cancelled or another one started. Where no section does that
(`RequestUndisturbed`), what the checks found still holds at the release: each operation keeps its
own assertion (`ExportCall.At`), and the state of the flow keeps agreeing with what happened since
the request was started (`ExportWorld.Consistent`).
-/

namespace StashiWallet

open Interleaving

/-! ## What a release is promised to mean -/

/-- The current request is that of the operation, its warning was acknowledged, its biometric
step completed and, for `complete_export`, the passphrase verified; the result is labelled with
its wallet. -/
def ExportCall.RightlyReleased (call : ExportCall) (world : ExportWorld)
    (result : SeedExportResult) : Prop :=
  ∃ history, world.history = some history ∧ history.acknowledged = true ∧
    history.biometricCompleted = true ∧
    match call with
    | .completeExport walletId passphrase seedWords =>
      history.walletId = walletId ∧ passphrase ∈ history.verified ∧ result = ⟨seedWords, walletId⟩
    | .completeExportVerified walletId seedWords =>
      history.walletId = walletId ∧ result = ⟨seedWords, walletId⟩
    | _ => False

/-- What is left of an operation is what follows its wallet check. -/
def ExportCall.WalletChecked (call : ExportCall) (rest : ExportProg) (walletId : String) : Prop :=
  (∃ passphrase seedWords, call = .completeExport walletId passphrase seedWords ∧
    rest = completeExportChecked passphrase seedWords) ∨
  ∃ seedWords, call = .completeExportVerified walletId seedWords ∧
    rest = completeVerifiedChecked seedWords

/-- Nothing but the release is left of an operation. -/
def ExportProg.Releasing (rest : ExportProg) : Prop :=
  ∃ seedWords, rest =
    .step (.releaseSeed seedWords) (fun result => .ret (.ok (some result)))

section Runs

variable {ι : Type} [DecidableEq ι] (verify : String → String → Except String Bool)
  (calls : ι → ExportCall)

/-- The operations in progress. -/
abbrev ExportMachine (ι : Type) : Type :=
  Machine ι ExportSection ExportSection.Answer (Except String (Option SeedExportResult)) ExportWorld

/-- No request ends or starts between the last check of another operation and its release, and
none is started for another wallet after a wallet check. -/
def RequestUndisturbed (m : ExportMachine ι)
    (e : Event ι ExportSection ExportSection.Answer) : Prop :=
  match e.stmt with
  | .startExport walletId => ∀ i, ¬ ExportProg.Releasing (m.pool i) ∧
      ∀ checked, (calls i).WalletChecked (m.pool i) checked → checked = walletId
  | .cancel | .reset => ∀ i, ¬ ExportProg.Releasing (m.pool i)
  | _ => True

end Runs

/-! ## The state of the flow -/

/-- The flow agrees with what happened since the request was started. -/
structure ExportWorld.Consistent (world : ExportWorld) : Prop where
  request : world.manager.request = world.history.map (fun history =>
    ⟨history.walletId, history.acknowledged, history.biometricCompleted⟩)
  warningDisplayed : world.manager.state = .warningDisplayed →
    ∃ history, world.history = some history
  awaitingBiometric : world.manager.state = .awaitingBiometric →
    ∃ history, world.history = some history ∧ history.acknowledged = true
  awaitingPassphrase : world.manager.state = .awaitingPassphrase →
    ∃ history, world.history = some history ∧ history.acknowledged = true ∧
      history.biometricCompleted = true

section Sections

variable {verify : String → String → Except String Bool} {world : ExportWorld}

theorem acknowledgeWarning_error {manager : SeedExportManager}
    (h : manager.state ≠ .warningDisplayed) :
    manager.acknowledgeWarning = (.error "Invalid export flow state", manager) :=
  if_pos h

theorem completeBiometric_error {manager : SeedExportManager} (success : Bool)
    (h : manager.state ≠ .awaitingBiometric) :
    manager.completeBiometric success = (.error "Invalid export flow state", manager) :=
  if_pos h

/-- A check of a passphrase adds to the history at most that the passphrase was verified. -/
theorem ExportHistory.after_verify (history : Option ExportHistory) (passphrase : String)
    (answer : Except String Bool) :
    ExportHistory.after history (.verifyPassphrase passphrase) answer = history ∨
      ExportHistory.after history (.verifyPassphrase passphrase) answer =
        history.map (fun history => { history with verified := passphrase :: history.verified }) := by
  cases answer with
  | error message => exact Or.inl rfl
  | ok verified =>
    cases verified with
    | false => exact Or.inl rfl
    | true => exact Or.inr rfl

/-- Every section keeps the flow in agreement. -/
theorem ExportWorld.Consistent.run (h : world.Consistent) (part : ExportSection) :
    (world.run verify part).2.Consistent := by
  obtain ⟨⟨state, request, protection, hash⟩, history⟩ := world
  obtain ⟨hrequest, hwarning, hbiometric, hpassphrase⟩ := h
  dsimp only at hrequest hwarning hbiometric hpassphrase
  subst hrequest
  unfold ExportWorld.run SeedExportManager.run
  cases part with
  | setPassphraseHash hash => exact ⟨rfl, hwarning, hbiometric, hpassphrase⟩
  | startExport walletId => exact ⟨rfl, fun _ => ⟨_, rfl⟩, nofun, nofun⟩
  | acknowledgeWarning =>
    dsimp only
    by_cases hstate : state = .warningDisplayed
    · subst hstate
      obtain ⟨history, rfl⟩ := hwarning rfl
      exact ⟨rfl, nofun, fun _ => ⟨_, rfl, rfl⟩, nofun⟩
    · rw [acknowledgeWarning_error hstate]
      exact ⟨rfl, hwarning, hbiometric, hpassphrase⟩
  | completeBiometric success =>
    dsimp only
    by_cases hstate : state = .awaitingBiometric
    · subst hstate
      obtain ⟨history, rfl, hacknowledged⟩ := hbiometric rfl
      cases success with
      | false => exact ⟨rfl, nofun, nofun, nofun⟩
      | true => exact ⟨rfl, nofun, nofun, fun _ => ⟨_, rfl, hacknowledged, rfl⟩⟩
    · rw [completeBiometric_error success hstate]
      cases success with
      | false => exact ⟨rfl, hwarning, hbiometric, hpassphrase⟩
      | true => exact ⟨rfl, hwarning, hbiometric, hpassphrase⟩
  | verifyPassphrase passphrase =>
    dsimp only
    rcases ExportHistory.after_verify history passphrase
      (SeedExportManager.verifyPassphrase verify passphrase _) with hafter | hafter
    · rw [hafter]
      exact ⟨rfl, hwarning, hbiometric, hpassphrase⟩
    · rw [hafter]
      cases history with
      | none => exact ⟨rfl, hwarning, hbiometric, hpassphrase⟩
      | some history =>
        refine ⟨rfl, fun _ => ⟨_, rfl⟩, fun hstate => ?_, fun hstate => ?_⟩
        · obtain ⟨_, ⟨⟩, hacknowledged⟩ := hbiometric hstate
          exact ⟨_, rfl, hacknowledged⟩
        · obtain ⟨_, ⟨⟩, hdone⟩ := hpassphrase hstate
          exact ⟨_, rfl, hdone⟩
  | ensureWalletId walletId => exact ⟨rfl, hwarning, hbiometric, hpassphrase⟩
  | state => exact ⟨rfl, hwarning, hbiometric, hpassphrase⟩
  | releaseSeed seedWords => exact ⟨rfl, nofun, nofun, nofun⟩
  | cancel => exact ⟨rfl, nofun, nofun, nofun⟩
  | reset => exact ⟨rfl, nofun, nofun, nofun⟩

end Sections

/-! ## The assertions of the operations -/

/-- If there is a request, it is for the wallet. -/
def ExportWorld.BoundTo (world : ExportWorld) (walletId : String) : Prop :=
  ∀ history, world.history = some history → history.walletId = walletId

/-- The release that is left of the operation may go on. -/
def ExportCall.Ready (call : ExportCall) (world : ExportWorld) (seedWords : List String) : Prop :=
  (world.manager.state = .awaitingPassphrase ∨ world.manager.state = .seedReady) ∧
    ∃ walletId, world.BoundTo walletId ∧ call.RightlyReleased world ⟨seedWords, walletId⟩

/-- How far an operation has come, and what it relies on. -/
def ExportCall.At (call : ExportCall) (rest : ExportProg) (world : ExportWorld) : Prop :=
  rest = call.prog ∨ (∃ returned, rest = .ret returned) ∨
    (∃ walletId, call.WalletChecked rest walletId ∧ world.BoundTo walletId) ∨
    ∃ seedWords, rest = .step (.releaseSeed seedWords) (fun result => .ret (.ok (some result))) ∧
      call.Ready world seedWords

section Assertions

variable {verify : String → String → Except String Bool} {world : ExportWorld}
  {call : ExportCall}

/-- The wallet check binds to the wallet. -/
theorem ExportWorld.Consistent.boundTo (h : world.Consistent) {walletId : String}
    (hchecked : world.manager.ensureWalletId walletId = .ok ()) : world.BoundTo walletId := by
  intro history hhistory
  unfold SeedExportManager.ensureWalletId at hchecked
  rw [h.request, hhistory] at hchecked
  dsimp only [Option.map_some] at hchecked
  split at hchecked
  · cases hchecked
  · rename_i hsame
    exact not_not.mp hsame

/-- A passphrase is verified in the state for it only. -/
theorem state_of_verifyPassphrase {manager : SeedExportManager} {passphrase : String}
    (h : manager.verifyPassphrase verify passphrase = .ok true) :
    manager.state = .awaitingPassphrase := by
  unfold SeedExportManager.verifyPassphrase at h
  split at h
  · cases h
  · rename_i hstate
    exact not_not.mp hstate

/-- The own sections carry an operation from assertion to assertion. -/
theorem ExportCall.At.own (hworld : world.Consistent) {part : ExportSection}
    {k : part.Answer → ExportProg} (h : call.At (.step part k) world) :
    call.At (k (world.run verify part).1) (world.run verify part).2 := by
  rcases h with hwhole | ⟨returned, ⟨⟩⟩ | ⟨walletId, hchecked, hbound⟩ | ⟨seedWords, hrest, -⟩
  · cases call with
    | completeExport walletId passphrase seedWords =>
      cases hwhole
      dsimp only [ExportWorld.run, SeedExportManager.run]
      cases hensured : world.manager.ensureWalletId walletId with
      | error message => exact Or.inr (Or.inl ⟨_, rfl⟩)
      | ok _ =>
        refine Or.inr (Or.inr (Or.inl ⟨walletId, Or.inl ⟨_, _, rfl, rfl⟩, ?_⟩))
        exact hworld.boundTo hensured
    | completeExportVerified walletId seedWords =>
      cases hwhole
      dsimp only [ExportWorld.run, SeedExportManager.run]
      cases hensured : world.manager.ensureWalletId walletId with
      | error message => exact Or.inr (Or.inl ⟨_, rfl⟩)
      | ok _ =>
        refine Or.inr (Or.inr (Or.inl ⟨walletId, Or.inr ⟨_, rfl, rfl⟩, ?_⟩))
        exact hworld.boundTo hensured
    | _ =>
      cases hwhole
      exact Or.inr (Or.inl ⟨_, rfl⟩)
  · rcases hchecked with ⟨passphrase, seedWords, rfl, hrest⟩ | ⟨seedWords, rfl, hrest⟩
    · cases hrest
      dsimp only [ExportWorld.run, SeedExportManager.run]
      cases hverified : world.manager.verifyPassphrase verify passphrase with
      | error message => exact Or.inr (Or.inl ⟨_, rfl⟩)
      | ok verified =>
        cases verified with
        | false => exact Or.inr (Or.inl ⟨_, rfl⟩)
        | true =>
          have hstate := state_of_verifyPassphrase hverified
          obtain ⟨history, hhistory, hacknowledged, hcompleted⟩ := hworld.awaitingPassphrase hstate
          have hwallet := hbound history hhistory
          refine Or.inr (Or.inr (Or.inr ⟨seedWords, rfl, Or.inl hstate, walletId, ?_, ?_⟩))
          · intro after hafter
            change world.history.map _ = some after at hafter
            rw [hhistory] at hafter
            cases hafter
            exact hwallet
          · refine ⟨{ history with verified := passphrase :: history.verified }, ?_, hacknowledged,
              hcompleted, hwallet, List.mem_cons_self, rfl⟩
            show world.history.map _ = _
            rw [hhistory]
            rfl
    · cases hrest
      dsimp only [ExportWorld.run, SeedExportManager.run]
      split
      · exact Or.inr (Or.inl ⟨_, rfl⟩)
      · rename_i hstate
        have hstate := not_not.mp hstate
        obtain ⟨history, hhistory, hacknowledged, hcompleted⟩ := hworld.awaitingPassphrase hstate
        refine Or.inr (Or.inr (Or.inr ⟨seedWords, rfl, Or.inl hstate, walletId, hbound, ?_⟩))
        exact ⟨history, hhistory, hacknowledged, hcompleted, hbound history hhistory, rfl⟩
  · cases hrest
    exact Or.inr (Or.inl ⟨_, rfl⟩)

/-- A section keeps the request bound, if it does not start one for another wallet. -/
theorem ExportWorld.BoundTo.run {walletId : String} (h : world.BoundTo walletId)
    {part : ExportSection} (hstart : ∀ started, part = .startExport started → started = walletId) :
    (world.run verify part).2.BoundTo walletId := by
  have hmap : ∀ change : ExportHistory → ExportHistory,
      (∀ history, (change history).walletId = history.walletId) →
      ∀ after, world.history.map change = some after → after.walletId = walletId := by
    intro change hchange after hafter
    obtain ⟨history, hhistory, rfl⟩ := Option.map_eq_some_iff.mp hafter
    exact (hchange history).trans (h history hhistory)
  intro after hafter
  unfold ExportWorld.run at hafter
  dsimp only at hafter
  unfold ExportHistory.after at hafter
  split at hafter
  · cases hafter
    exact hstart _ rfl
  · exact hmap (fun history => { history with acknowledged := true }) (fun _ => rfl) after hafter
  · exact hmap (fun history => { history with biometricCompleted := true }) (fun _ => rfl) after
      hafter
  · cases hafter
  · rename_i passphrase _
    exact hmap (fun history => { history with verified := passphrase :: history.verified })
      (fun _ => rfl) after hafter
  · cases hafter
  · cases hafter
  · exact h after hafter

/-- What a release relies on stays, if no section ends the request or starts one. -/
theorem ExportCall.Ready.run {seedWords : List String} (h : call.Ready world seedWords)
    {part : ExportSection} (hstart : ∀ started, part ≠ .startExport started)
    (hcancel : part ≠ .cancel) (hreset : part ≠ .reset) :
    call.Ready (world.run verify part).2 seedWords := by
  obtain ⟨hstate, walletId, hbound, hreleased⟩ := h
  cases part with
  | setPassphraseHash hash => exact ⟨hstate, walletId, hbound, hreleased⟩
  | startExport started => exact absurd rfl (hstart started)
  | acknowledgeWarning =>
    have herror : world.manager.state ≠ .warningDisplayed := by
      rintro heq
      rcases hstate with hstate | hstate
      · cases heq.symm.trans hstate
      · cases heq.symm.trans hstate
    dsimp only [ExportWorld.run, SeedExportManager.run]
    rw [acknowledgeWarning_error herror]
    exact ⟨hstate, walletId, hbound, hreleased⟩
  | completeBiometric success =>
    have herror : world.manager.state ≠ .awaitingBiometric := by
      rintro heq
      rcases hstate with hstate | hstate
      · cases heq.symm.trans hstate
      · cases heq.symm.trans hstate
    dsimp only [ExportWorld.run, SeedExportManager.run]
    rw [completeBiometric_error success herror]
    cases success with
    | false => exact ⟨hstate, walletId, hbound, hreleased⟩
    | true => exact ⟨hstate, walletId, hbound, hreleased⟩
  | verifyPassphrase passphrase =>
    refine ⟨hstate, walletId, hbound.run (fun started h => nomatch h), ?_⟩
    obtain ⟨history, hhistory, hacknowledged, hcompleted, hcall⟩ := hreleased
    dsimp only [ExportWorld.run, SeedExportManager.run]
    rcases ExportHistory.after_verify world.history passphrase
      (world.manager.verifyPassphrase verify passphrase) with hafter | hafter
    · rw [hafter]
      exact ⟨history, hhistory, hacknowledged, hcompleted, hcall⟩
    · rw [hafter, hhistory]
      refine ⟨_, rfl, hacknowledged, hcompleted, ?_⟩
      cases call with
      | completeExport walletId typed seedWords =>
        exact ⟨hcall.1, List.mem_cons_of_mem passphrase hcall.2.1, hcall.2.2⟩
      | completeExportVerified walletId seedWords => exact hcall
      | _ => exact hcall
  | ensureWalletId walletId => exact ⟨hstate, _, hbound, hreleased⟩
  | state => exact ⟨hstate, walletId, hbound, hreleased⟩
  | releaseSeed words => exact ⟨Or.inr rfl, walletId, hbound, hreleased⟩
  | cancel => exact absurd rfl hcancel
  | reset => exact absurd rfl hreset

/-- At the release the result is the promised one. -/
theorem ExportCall.Ready.releases (hworld : world.Consistent) {seedWords : List String}
    (h : call.Ready world seedWords) :
    call.RightlyReleased world (world.manager.releaseSeed seedWords).1 := by
  obtain ⟨-, walletId, hbound, history, hhistory, hacknowledged, hcompleted, hcall⟩ := h
  have hresult : (world.manager.releaseSeed seedWords).1 = ⟨seedWords, walletId⟩ := by
    unfold SeedExportManager.releaseSeed
    rw [hworld.request, hhistory]
    show (⟨seedWords, history.walletId⟩ : SeedExportResult) = _
    rw [hbound history hhistory]
  rw [hresult]
  exact ⟨history, hhistory, hacknowledged, hcompleted, hcall⟩

end Assertions

/-! ## Runs -/

section Interleavings

variable {ι : Type} [DecidableEq ι] {verify : String → String → Except String Bool}
  {calls : ι → ExportCall}

/-- The sections of other operations that are allowed leave the assertions alone. -/
theorem ExportCall.At.others {m m' : ExportMachine ι}
    {e : Event ι ExportSection ExportSection.Answer}
    (hstep : Machine.Step (ExportWorld.Runs verify) m e m')
    (hallowed : RequestUndisturbed calls m e)
    {i : ι} (h : (calls i).At (m.pool i) m.shared) : (calls i).At (m.pool i) m'.shared := by
  obtain ⟨k, shared, -, hexec⟩ := hstep
  have hshared : shared = (m.shared.run verify e.stmt).2 := (congrArg Prod.snd hexec).symm
  subst hshared
  rcases h with hwhole | hreturned | ⟨walletId, hchecked, hbound⟩ | ⟨seedWords, hrest, hready⟩
  · exact Or.inl hwhole
  · exact Or.inr (Or.inl hreturned)
  · refine Or.inr (Or.inr (Or.inl ⟨walletId, hchecked, hbound.run (fun started hstart => ?_)⟩))
    unfold RequestUndisturbed at hallowed
    rw [hstart] at hallowed
    exact ((hallowed i).2 walletId hchecked).symm
  · have hreleasing : ExportProg.Releasing (m.pool i) := ⟨seedWords, hrest⟩
    unfold RequestUndisturbed at hallowed
    refine Or.inr (Or.inr (Or.inr ⟨seedWords, hrest, hready.run ?_ ?_ ?_⟩))
    · intro started hstart
      rw [hstart] at hallowed
      exact (hallowed i).1 hreleasing
    · intro hcancel
      rw [hcancel] at hallowed
      exact hallowed i hreleasing
    · intro hreset
      rw [hreset] at hallowed
      exact hallowed i hreleasing

/-- **Which seed is released.** In every interleaving of operations whose sections leave each
other undisturbed, a completing operation that releases a seed does so for the current request,
with all its steps done, and labels it with its wallet. -/
theorem seed_released_rightly (verify : String → String → Except String Bool)
    (calls : ι → ExportCall) {m m' : ExportMachine ι}
    (hreach : Machine.Reach (ExportWorld.Runs verify) (RequestUndisturbed calls)
      (Machine.start (fun i => (calls i).prog) ⟨.new, none⟩) m)
    (i : ι) (seedWords : List String) (result : SeedExportResult)
    (hstep : Machine.Step (ExportWorld.Runs verify) m ⟨i, .releaseSeed seedWords, result⟩ m') :
    (calls i).RightlyReleased m.shared result := by
  have hworld : m.shared.Consistent := by
    refine Machine.shared_of_reach (P := ExportWorld.Consistent) ?_ ?_ hreach
    · intro part answer before after hbefore hexec
      have hafter : after = (before.run verify part).2 := (congrArg Prod.snd hexec).symm
      rw [hafter]
      exact hbefore.run part
    · exact ⟨rfl, nofun, nofun, nofun⟩
  have hat : m.shared.Consistent ∧ (calls i).At (m.pool i) m.shared := by
    refine @Machine.pool_of_reach _ _ _ _ _ _ _ _
      (fun i rest world => world.Consistent ∧ (calls i).At rest world) _ _ _ ?_ ?_ ?_ hreach i
    · exact fun i => ⟨⟨rfl, nofun, nofun, nofun⟩, Or.inl rfl⟩
    · rintro i part k answer before after ⟨hconsistent, hat⟩ hexec
      obtain ⟨rfl, rfl⟩ : (before.run verify part).1 = answer ∧ (before.run verify part).2 = after :=
        Prod.mk.inj hexec
      exact ⟨hconsistent.run part, hat.own hconsistent⟩
    · rintro m m' e hstep hallowed i - ⟨hconsistent, hat⟩
      refine ⟨?_, hat.others hstep hallowed⟩
      obtain ⟨k, shared, -, hexec⟩ := hstep
      have hshared : shared = (m.shared.run verify e.stmt).2 := (congrArg Prod.snd hexec).symm
      rw [show (m.after e (k e.reply) shared).shared = shared from rfl, hshared]
      exact hconsistent.run e.stmt
  obtain ⟨k, shared, hpool, hexec⟩ := hstep
  have hresult : (m.shared.manager.releaseSeed seedWords).1 = result := congrArg Prod.fst hexec
  rw [← hresult]
  rw [hpool] at hat
  rcases hat.2 with hwhole | ⟨returned, ⟨⟩⟩ | ⟨walletId, hchecked, -⟩ | ⟨words, hrest, hready⟩
  · cases hcall : calls i with
    | _ =>
      rw [hcall] at hwhole
      cases hwhole
  · rcases hchecked with ⟨passphrase, words, -, hrest⟩ | ⟨words, -, hrest⟩
    · cases hrest
    · cases hrest
  · cases hrest
    exact hready.releases hworld

end Interleavings

/-! ## An export, and one that is cancelled too late -/

/-- An export of a wallet without a passphrase check, and a cancellation. -/
def exportCalls : Nat → ExportCall
  | 0 => .startExport "savings"
  | 1 => .acknowledgeWarning
  | 2 => .completeBiometric true
  | 3 => .completeExportVerified "savings" ["abandon", "zoo"]
  | _ => .cancel

/-- No passphrase is right. -/
def verifyNone (_hash _passphrase : String) : Except String Bool := .ok false

/-- The operations after some of their sections. -/
def exportAfter (schedule : List Nat) : ExportMachine Nat :=
  schedule.foldl (Machine.fire (ExportWorld.run verifyNone))
    (Machine.start (fun i => (exportCalls i).prog) ⟨.new, none⟩)

theorem exportAfter_step {schedule : List Nat} {i : Nat} {part : ExportSection}
    {k : part.Answer → ExportProg} (h : (exportAfter schedule).pool i = .step part k) :
    Machine.Step (ExportWorld.Runs verifyNone) (exportAfter schedule)
      ⟨i, part, ((exportAfter schedule).shared.run verifyNone part).1⟩
      (Machine.fire (ExportWorld.run verifyNone) (exportAfter schedule) i) :=
  Machine.step_fire (fun _ _ => rfl) h

/-- The seed of the wallet is released after all steps of its export. -/
theorem seed_released_rightly_savings :
    (exportCalls 3).RightlyReleased (exportAfter [0, 1, 2, 3, 3]).shared
      ⟨["abandon", "zoo"], "savings"⟩ := by
  refine seed_released_rightly verifyNone exportCalls ?_ 3 ["abandon", "zoo"] _
    (@exportAfter_step [0, 1, 2, 3, 3] 3 _ _ rfl)
  have hfirst : RequestUndisturbed exportCalls (exportAfter [])
      ⟨0, .startExport "savings", .warningDisplayed⟩ := by
    intro i
    have hprog : ∀ call : ExportCall, ¬ ExportProg.Releasing call.prog ∧
        ∀ checked, call.WalletChecked call.prog checked → checked = "savings" := by
      intro call
      refine ⟨?_, ?_⟩
      · rintro ⟨words, hrest⟩
        cases call with
        | _ => cases hrest
      · rintro checked (⟨passphrase, words, rfl, hrest⟩ | ⟨words, rfl, hrest⟩)
        · cases hrest
        · cases hrest
    exact hprog (exportCalls i)
  refine .tail (.tail (.tail (.tail (.tail .refl
    ⟨_, @exportAfter_step [] 0 _ _ rfl, hfirst⟩)
    ⟨_, @exportAfter_step [0] 1 _ _ rfl, trivial⟩)
    ⟨_, @exportAfter_step [0, 1] 2 _ _ rfl, trivial⟩)
    ⟨_, @exportAfter_step [0, 1, 2] 3 _ _ rfl, trivial⟩)
    ⟨_, @exportAfter_step [0, 1, 2, 3] 3 _ _ rfl, trivial⟩

/-- The export is cancelled between the last check and the release: the seed is released for no
request, and labelled with no wallet. -/
theorem cancelled_seed_released :
    ∃ (m m' : ExportMachine Nat) (result : SeedExportResult),
      Machine.Reach (ExportWorld.Runs verifyNone) (fun _ _ => True)
        (Machine.start (fun i => (exportCalls i).prog) ⟨.new, none⟩) m ∧
      Machine.Step (ExportWorld.Runs verifyNone) m
        ⟨3, .releaseSeed ["abandon", "zoo"], result⟩ m' ∧
      ¬ (exportCalls 3).RightlyReleased m.shared result := by
  refine ⟨exportAfter [0, 1, 2, 3, 3, 4], _, _, ?_, @exportAfter_step [0, 1, 2, 3, 3, 4] 3 _ _ rfl,
    ?_⟩
  · exact Machine.reach_schedule (fun _ _ => rfl) (fun _ _ => trivial) _ [0, 1, 2, 3, 3, 4]
  · rintro ⟨history, hhistory, -⟩
    cases hhistory

end StashiWallet
