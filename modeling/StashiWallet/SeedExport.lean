import StashiWallet.Interleaving

/-!
# The seed export flow

The manager keeps the state of the flow and the current request behind locks. An operation takes
the locks it needs, and most do all their work under them; `complete_export` and
`complete_export_verified` check the wallet, then the state, and only then take the locks to
release the seed. What is done under one hold of the locks is a *section*, and operations
interleave section by section.

Whether a passphrase belongs to a hash is a parameter. Times and the device are left out.
-/

namespace StashiWallet

open Interleaving

/-! ## The manager -/

inductive ExportFlowState where
  | notStarted
  | warningDisplayed
  | awaitingBiometric
  | awaitingPassphrase
  | seedReady
  | complete
  | cancelled
  | failed
deriving DecidableEq, Repr

structure SeedExportRequest where
  walletId : String
  warningAcknowledged : Bool
  biometricPassed : Bool
deriving DecidableEq, Repr

def SeedExportRequest.new (walletId : String) : SeedExportRequest := ⟨walletId, false, false⟩

structure SeedExportResult where
  words : List String
  walletId : String
deriving DecidableEq, Repr

/-- `SeedExportManager`; of the screenshot protection, whether the token is held. -/
structure SeedExportManager where
  state : ExportFlowState
  request : Option SeedExportRequest
  screenshotProtection : Bool
  passphraseHash : Option String
deriving DecidableEq, Repr

namespace SeedExportManager

def new : SeedExportManager := ⟨.notStarted, none, false, none⟩

def setPassphraseHash (hash : String) (manager : SeedExportManager) : SeedExportManager :=
  { manager with passphraseHash := some hash }

def startExport (walletId : String) (manager : SeedExportManager) :
    ExportFlowState × SeedExportManager :=
  (.warningDisplayed, { manager with
    state := .warningDisplayed
    request := some (.new walletId)
    screenshotProtection := true })

def acknowledgeWarning (manager : SeedExportManager) :
    Except String ExportFlowState × SeedExportManager :=
  if manager.state ≠ .warningDisplayed then (.error "Invalid export flow state", manager)
  else (.ok .awaitingBiometric, { manager with
    state := .awaitingBiometric
    request := manager.request.map (fun request => { request with warningAcknowledged := true }) })

/-- `complete_biometric`; `skip_biometric` is `complete_biometric(true)`. -/
def completeBiometric (success : Bool) (manager : SeedExportManager) :
    Except String ExportFlowState × SeedExportManager :=
  if manager.state ≠ .awaitingBiometric then (.error "Invalid export flow state", manager)
  else if !success then (.ok .cancelled, { manager with
    state := .cancelled
    request := none
    screenshotProtection := false })
  else (.ok .awaitingPassphrase, { manager with
    state := .awaitingPassphrase
    request := manager.request.map (fun request => { request with biometricPassed := true }) })

def verifyPassphrase (verify : String → String → Except String Bool) (passphrase : String)
    (manager : SeedExportManager) : Except String Bool :=
  if manager.state ≠ .awaitingPassphrase then .error "Invalid export flow state"
  else
    match manager.passphraseHash with
    | none => .error "Passphrase not configured"
    | some hash => verify hash passphrase

def ensureWalletId (walletId : String) (manager : SeedExportManager) : Except String Unit :=
  match manager.request with
  | none => .error "No active seed export request"
  | some request =>
    if request.walletId ≠ walletId then
      .error "Seed export request is bound to a different wallet"
    else .ok ()

/-- The last section of `complete_export` and of `complete_export_verified`. -/
def releaseSeed (seedWords : List String) (manager : SeedExportManager) :
    SeedExportResult × SeedExportManager :=
  (⟨seedWords, (manager.request.map SeedExportRequest.walletId).getD ""⟩,
    { manager with state := .seedReady })

def cancel (manager : SeedExportManager) : SeedExportManager :=
  { manager with state := .cancelled, request := none, screenshotProtection := false }

def reset (manager : SeedExportManager) : SeedExportManager :=
  { manager with state := .notStarted, request := none, screenshotProtection := false }

end SeedExportManager

/-! ## Sections -/

/-- What is done under one hold of the locks. -/
inductive ExportSection where
  | setPassphraseHash (hash : String)
  | startExport (walletId : String)
  | acknowledgeWarning
  | completeBiometric (success : Bool)
  | verifyPassphrase (passphrase : String)
  | ensureWalletId (walletId : String)
  | state
  | releaseSeed (seedWords : List String)
  | cancel
  | reset
deriving DecidableEq

/-- What a section answers. -/
abbrev ExportSection.Answer : ExportSection → Type
  | setPassphraseHash _ | cancel | reset => Unit
  | startExport _ | state => ExportFlowState
  | acknowledgeWarning | completeBiometric _ => Except String ExportFlowState
  | verifyPassphrase _ => Except String Bool
  | ensureWalletId _ => Except String Unit
  | releaseSeed _ => SeedExportResult

/-- What happened since the current request was started. -/
structure ExportHistory where
  walletId : String
  acknowledged : Bool
  biometricCompleted : Bool
  verified : List String
deriving DecidableEq

/-- The history after a section and its answer. -/
def ExportHistory.after (history : Option ExportHistory) :
    (part : ExportSection) → part.Answer → Option ExportHistory
  | .startExport walletId, _ => some ⟨walletId, false, false, []⟩
  | .acknowledgeWarning, .ok _ =>
    history.map (fun history => { history with acknowledged := true })
  | .completeBiometric true, .ok _ =>
    history.map (fun history => { history with biometricCompleted := true })
  | .completeBiometric false, .ok _ => none
  | .verifyPassphrase passphrase, .ok true =>
    history.map (fun history => { history with verified := passphrase :: history.verified })
  | .cancel, _ | .reset, _ => none
  | _, _ => history

/-- The manager, and beside it what happened since the current request was started. -/
structure ExportWorld where
  manager : SeedExportManager
  history : Option ExportHistory

section Operations

variable (verify : String → String → Except String Bool)

/-- A section on the manager. -/
def SeedExportManager.run (manager : SeedExportManager) :
    (part : ExportSection) → part.Answer × SeedExportManager
  | .setPassphraseHash hash => ((), manager.setPassphraseHash hash)
  | .startExport walletId => manager.startExport walletId
  | .acknowledgeWarning => manager.acknowledgeWarning
  | .completeBiometric success => manager.completeBiometric success
  | .verifyPassphrase passphrase => (manager.verifyPassphrase verify passphrase, manager)
  | .ensureWalletId walletId => (manager.ensureWalletId walletId, manager)
  | .state => (manager.state, manager)
  | .releaseSeed seedWords => manager.releaseSeed seedWords
  | .cancel => ((), manager.cancel)
  | .reset => ((), manager.reset)

def ExportWorld.run (world : ExportWorld) (part : ExportSection) : part.Answer × ExportWorld :=
  let answered := world.manager.run verify part
  (answered.1, ⟨answered.2, ExportHistory.after world.history part answered.1⟩)

/-- The world a section leaves, and its answer, are those of `run`. -/
def ExportWorld.Runs (world : ExportWorld) (part : ExportSection) (answer : part.Answer)
    (after : ExportWorld) : Prop :=
  world.run verify part = (answer, after)

/-- An operation of the manager. -/
inductive ExportCall where
  | setPassphraseHash (hash : String)
  | startExport (walletId : String)
  | acknowledgeWarning
  | completeBiometric (success : Bool)
  | completeExport (walletId passphrase : String) (seedWords : List String)
  | completeExportVerified (walletId : String) (seedWords : List String)
  | cancel
  | reset

/-- An operation as its sections; only what the two completing ones return matters. -/
abbrev ExportProg : Type :=
  Prog ExportSection ExportSection.Answer (Except String (Option SeedExportResult))

/-- The sections of `complete_export` after the wallet check. -/
def completeExportChecked (passphrase : String) (seedWords : List String) : ExportProg :=
  .step (.verifyPassphrase passphrase) (fun verified =>
    match (verified : Except String Bool) with
    | .error message => .ret (.error message)
    | .ok false => .ret (.error "Invalid passphrase")
    | .ok true => .step (.releaseSeed seedWords) (fun result => .ret (.ok (some result))))

def completeExport (walletId passphrase : String) (seedWords : List String) : ExportProg :=
  .step (.ensureWalletId walletId) (fun checked =>
    match (checked : Except String Unit) with
    | .error message => .ret (.error message)
    | .ok () => completeExportChecked passphrase seedWords)

/-- The sections of `complete_export_verified` after the wallet check. -/
def completeVerifiedChecked (seedWords : List String) : ExportProg :=
  .step .state (fun state =>
    if (state : ExportFlowState) ≠ .awaitingPassphrase then
      .ret (.error "Invalid export flow state")
    else .step (.releaseSeed seedWords) (fun result => .ret (.ok (some result))))

def completeExportVerified (walletId : String) (seedWords : List String) : ExportProg :=
  .step (.ensureWalletId walletId) (fun checked =>
    match (checked : Except String Unit) with
    | .error message => .ret (.error message)
    | .ok () => completeVerifiedChecked seedWords)

def ExportCall.prog : ExportCall → ExportProg
  | .setPassphraseHash hash => .step (.setPassphraseHash hash) (fun _ => .ret (.ok none))
  | .startExport walletId => .step (.startExport walletId) (fun _ => .ret (.ok none))
  | .acknowledgeWarning => .step .acknowledgeWarning (fun _ => .ret (.ok none))
  | .completeBiometric success => .step (.completeBiometric success) (fun _ => .ret (.ok none))
  | .completeExport walletId passphrase seedWords =>
    StashiWallet.completeExport walletId passphrase seedWords
  | .completeExportVerified walletId seedWords =>
    StashiWallet.completeExportVerified walletId seedWords
  | .cancel => .step .cancel (fun _ => .ret (.ok none))
  | .reset => .step .reset (fun _ => .ret (.ok none))

end Operations

end StashiWallet
