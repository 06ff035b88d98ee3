import StashiWallet.Interleaving
import StashiWallet.OrderedStream

/-!
# The selected transport

The process has one selected transport configuration and at most one published manager. Calls
select a configuration, create the manager that goes with it, tear it down and open connections
through it; they run concurrently, and between any two operations on the shared state another
call may run.

A manager is known by its index among all that were created, and keeps the configuration it was
created with. The configurations are a type parameter, and which of them the build supports is a
parameter. A statement of `TransportStatement` is one operation on an atomic or under a lock; one
that is awaited may also fail, or its call is dropped there, which is a failure too. The locks
are not poisoned and the counters do not wrap. `debug!` lines are left out.
-/

namespace StashiWallet

open Interleaving

/-- `GlobalTransportState` and `DESIRED_TRANSPORT_CONFIG`, with the holder of its write guard,
every manager created, those invalidated, and every push onto `retired`. The generation counts on
where the `AtomicU64` would wrap, after `2 ^ 64` changes. -/
structure GlobalTransport (ι Config : Type) where
  manager : Option Nat
  retired : List Nat
  initialization : Option ι
  generation : Nat
  shutdownGeneration : Nat
  desired : Option Config
  selecting : Option ι
  managers : List Config
  invalidated : List Nat
  retirements : List Nat
deriving DecidableEq

/-- The operations of the calls on the shared state. -/
inductive TransportStatement (ι Config : Type) where
  | loadGeneration
  | loadShutdownGeneration
  | storeShutdownGeneration (generation : Nat)
  | advanceGeneration
  | readDesired
  | lockSelection (task : ι)
  | selected
  | select (config : Config)
  | deselect
  | unlockSelection
  | lockInitialization (task : ι)
  | unlockInitialization
  | get
  | matchesConfig (manager : Nat) (config : Config)
  | isInvalidated (manager : Nat)
  | retireCurrent
  | takeRetired
  | shutdownManager (manager : Nat)
  | startManager (config : Config)
  | publish (config : Config) (generation : Nat)
  | fetchSpkiPin (manager : Nat)
  | createGrpcChannel (manager : Nat)
  | createGrpcChannelLazy (manager : Nat)
deriving DecidableEq, Repr

namespace TransportStatement

variable {ι Config : Type}

/-- What a statement answers when it succeeds. -/
abbrev Answer : TransportStatement ι Config → Type
  | loadGeneration | loadShutdownGeneration | advanceGeneration => Nat
  | readDesired | selected => Option Config
  | get | publish _ _ => Option Nat
  | matchesConfig _ _ | isInvalidated _ => Bool
  | takeRetired => List Nat
  | _ => Unit

/-- A statement's answer or an error. -/
abbrev Reply (statement : TransportStatement ι Config) : Type :=
  Except ClientError statement.Answer

/-- The statements behind `.await`. -/
def Awaits : TransportStatement ι Config → Bool
  | lockInitialization _ | shutdownManager _ | startManager _ | fetchSpkiPin _
  | createGrpcChannel _ => true
  | _ => false

/-- The statements that open a connection, or a channel for one, through the manager. -/
def Through (manager : Nat) : TransportStatement ι Config → Prop
  | fetchSpkiPin other | createGrpcChannel other | createGrpcChannelLazy other => other = manager
  | _ => False

end TransportStatement

namespace GlobalTransport

variable {ι Config : Type}

/-- `GLOBAL_TRANSPORT` and `DESIRED_TRANSPORT_CONFIG` at the start of the process. -/
def initial : GlobalTransport ι Config where
  manager := none
  retired := []
  initialization := none
  generation := 0
  shutdownGeneration := u64Max
  desired := none
  selecting := none
  managers := []
  invalidated := []
  retirements := []

variable (s : GlobalTransport ι Config)

/-- `invalidate_connections` and the push onto `retired`. -/
def retire (manager : Nat) : GlobalTransport ι Config :=
  { s with
    retired := s.retired ++ [manager]
    invalidated := manager :: s.invalidated
    retirements := s.retirements ++ [manager] }

def retireCurrent : GlobalTransport ι Config :=
  match s.manager with
  | some manager => { s.retire manager with manager := none }
  | none => s

variable [DecidableEq Config]

/-- The end of `get_or_init_for_generation`, under the selection's read guard: the manager that
was started is published, or it is retired and the answer is `none`. Only the call has seen that
manager before, so it is created here. The selection and the counters change under the write
guard alone, and nothing here waits. -/
def publish (config : Config) (generation : Nat) : Option Nat × GlobalTransport ι Config :=
  let created := s.managers.length
  let s := { s with managers := s.managers ++ [config] }
  if (s.generation ≠ generation ∨ s.shutdownGeneration = generation) ∨
      s.desired.any (· != config) then
    (none, s.retire created)
  else (some created, { s with manager := some created })

/-- A statement that succeeds, or `none` while it waits for a lock.

`select` is the `fetch_add` and the assignment that follows it: the selection cannot be read in
between, so that a call which reads the counter there goes on after the assignment. -/
def run [DecidableEq ι] :
    (statement : TransportStatement ι Config) → Option (statement.Answer × GlobalTransport ι Config)
  | .loadGeneration => some (s.generation, s)
  | .loadShutdownGeneration => some (s.shutdownGeneration, s)
  | .storeShutdownGeneration generation => some ((), { s with shutdownGeneration := generation })
  | .advanceGeneration => some (s.generation + 1, { s with generation := s.generation + 1 })
  | .readDesired => if s.selecting = none then some (s.desired, s) else none
  | .lockSelection task =>
    if s.selecting = none then some ((), { s with selecting := some task }) else none
  | .selected => some (s.desired, s)
  | .select config =>
    some ((), { s with generation := s.generation + 1, desired := some config })
  | .deselect => some ((), { s with desired := none })
  | .unlockSelection => some ((), { s with selecting := none })
  | .lockInitialization task =>
    if s.initialization = none then some ((), { s with initialization := some task }) else none
  | .unlockInitialization => some ((), { s with initialization := none })
  | .get => some (s.manager, s)
  | .matchesConfig manager config => some (s.managers[manager]? == some config, s)
  | .isInvalidated manager => some (decide (manager ∈ s.invalidated), s)
  | .retireCurrent => some ((), s.retireCurrent)
  | .takeRetired => some (s.retired, { s with retired := [] })
  | .shutdownManager manager => some ((), { s with invalidated := manager :: s.invalidated })
  | .startManager _ => some ((), s)
  | .publish config generation =>
    if s.selecting = none then some (s.publish config generation) else none
  | .fetchSpkiPin _ => some ((), s)
  | .createGrpcChannel _ => some ((), s)
  | .createGrpcChannelLazy _ => some ((), s)

/-- What running a statement can do: fail where it is awaited, or succeed. -/
def Executes [DecidableEq ι] (before : GlobalTransport ι Config)
    (statement : TransportStatement ι Config) (reply : statement.Reply)
    (after : GlobalTransport ι Config) : Prop :=
  match reply with
  | .error _ => statement.Awaits = true ∧ after = before
  | .ok answer => before.run statement = some (answer, after)

end GlobalTransport

/-! ## The calls -/

/-- A call that returns an `α` or stops at the first error. -/
abbrev TransportM (ι Config : Type) : Type → Type :=
  ExceptT ClientError (Prog (TransportStatement ι Config) TransportStatement.Reply)

namespace TransportM

variable {ι Config α : Type}

/-- One statement, with `?`. -/
def query (statement : TransportStatement ι Config) : TransportM ι Config statement.Answer :=
  ExceptT.mk (Prog.call statement)

/-- The call's work under the initialization guard, which is released in any case. -/
def withInitialization (task : ι) (call : TransportM ι Config α) : TransportM ι Config α := do
  query (.lockInitialization task)
  ExceptT.mk (call.run >>= fun result =>
    (query .unlockInitialization).run >>= fun _ => pure result)

end TransportM

open TransportM

section Calls

variable {ι Config : Type} [DecidableEq Config] (available : Config → Bool) (task : ι)

def ensureGeneration (generation : Nat) : TransportM ι Config Unit := do
  if (← query .loadGeneration) ≠ generation then throw .cancelled
  if (← query .loadShutdownGeneration) = generation then throw .cancelled

/-- The check against `desired_transport_config`. -/
def ensureDesired (requested : Config) : TransportM ι Config Unit := do
  if (← query .readDesired).any (· != requested) then throw .cancelled

/-- `ensure_available`; the error is a text of the network layer. -/
def ensureAvailable (config : Config) : TransportM ι Config Unit :=
  if available config then pure () else throw (.network "transport unavailable")

def shutdownRetired : TransportM ι Config Unit := do
  let retired ← query .takeRetired
  retired.forM fun manager => query (.shutdownManager manager)

/-- The creation of a manager in `get_or_init_for_generation`. -/
def createManager (requested : Config) (generation : Nat) : TransportM ι Config Nat := do
  query (.startManager requested)
  match ← query (.publish requested generation) with
  | some created => pure created
  | none => throw .cancelled

/-- `get_or_init_for_generation`, under the initialization guard. -/
def getOrInitLocked (requested : Config) (generation : Nat) : TransportM ι Config Nat := do
  ensureGeneration generation
  ensureDesired requested
  shutdownRetired
  ensureGeneration generation
  ensureDesired requested
  match ← query .get with
  | some manager =>
    let same ← query (.matchesConfig manager requested)
    let invalidated ← query (.isInvalidated manager)
    if same && !invalidated then pure manager
    else do
      query .retireCurrent
      shutdownRetired
      ensureGeneration generation
      createManager requested generation
  | none => createManager requested generation

def getOrInitForGeneration (requested : Config) (generation : Nat) : TransportM ι Config Nat := do
  ensureGeneration generation
  ensureAvailable available requested
  ensureDesired requested
  withInitialization task (getOrInitLocked requested generation)

def getOrInit (requested : Config) : TransportM ι Config Nat := do
  let generation ← query .loadGeneration
  getOrInitForGeneration available task requested generation

def resolveTransportConfig (requested : Config) : TransportM ι Config Config := do
  return (← query .readDesired).getD requested

def getMatching (requested : Config) : TransportM ι Config (Option Nat) := do
  if (← query .readDesired).any (· != requested) then pure none
  else do
    let config ← resolveTransportConfig requested
    match ← query .get with
    | none => pure none
    | some manager =>
      let same ← query (.matchesConfig manager config)
      let invalidated ← query (.isInvalidated manager)
      pure (if same && !invalidated then some manager else none)

/-- `GlobalTransportState::shutdown`. -/
def shutdownTransport : TransportM ι Config Unit := do
  query (.lockSelection task)
  let generation ← query .advanceGeneration
  query (.storeShutdownGeneration generation)
  query .retireCurrent
  query .unlockSelection
  withInitialization task do
    shutdownRetired
    query (.lockSelection task)
    if (← query .loadGeneration) = generation then
      query .deselect
      let _ ← query .advanceGeneration
    query .unlockSelection

/-- `select_transport`; the answer says whether it was a change. -/
def selectTransport (config : Config) : TransportM ι Config Bool := do
  ensureAvailable available config
  query (.lockSelection task)
  let selected ← query .selected
  let shutdown ← query .loadShutdownGeneration
  let generation ← query .loadGeneration
  if selected ≠ some config ∨ shutdown = generation then
    query .retireCurrent
    query (.select config)
    query .unlockSelection
    return true
  else
    query .unlockSelection
    return false

/-- `select_transport_if_unset`; the answer says whether it was a change. -/
def selectTransportIfUnset (config : Config) : TransportM ι Config Bool := do
  ensureAvailable available config
  query (.lockSelection task)
  match ← query .selected with
  | some selected =>
    query .unlockSelection
    if selected ≠ config then throw .cancelled else return false
  | none =>
    query .retireCurrent
    query (.select config)
    query .unlockSelection
    return true

/-- `LightClient::try_connect`, once it has its manager. `pinned` says that the endpoint has a
certificate pin; another pin than the expected one is an error. -/
def connectThrough (config : Config) (pinned initializeTransport : Bool) (generation : Nat)
    (manager : Nat) : TransportM ι Config Nat := do
  ensureGeneration generation
  if !initializeTransport then ensureDesired config
  if pinned then query (.fetchSpkiPin manager)
  if !initializeTransport then ensureDesired config
  query (.createGrpcChannel manager)
  return manager

/-- `LightClient::try_connect`, with the manager the channel goes through. -/
def tryConnect (config : Config) (pinned initializeTransport : Bool) (generation : Nat) :
    TransportM ι Config Nat := do
  ensureGeneration generation
  if initializeTransport then
    let manager ← getOrInitForGeneration available task config generation
    connectThrough config pinned initializeTransport generation manager
  else do
    match ← getMatching config with
    | some manager => connectThrough config pinned initializeTransport generation manager
    | none => throw .cancelled

/-- `LightClient::try_connect_for_probe`, with the manager the channel goes through. -/
def tryConnectForProbe (config : Config) (generation : Nat) : TransportM ι Config Nat := do
  ensureGeneration generation
  match ← getMatching config with
  | some manager =>
    ensureDesired config
    ensureGeneration generation
    query (.createGrpcChannelLazy manager)
    return manager
  | none => throw .cancelled

end Calls

/-- The calls on the shared state. A client captures the generation when it is made, and connects
at any time afterwards. -/
inductive TransportCall (Config : Type) where
  | selectTransport (config : Config)
  | selectTransportIfUnset (config : Config)
  | getOrInit (config : Config)
  | getMatching (config : Config)
  | shutdown
  | connect (config : Config) (pinned initializeTransport : Bool)
  | probe (config : Config)
deriving DecidableEq, Repr

/-- What a call returns: whether a selection was a change, or a manager. -/
inductive TransportOutcome where
  | selected (changed : Bool)
  | manager (index : Option Nat)
  | shutdown
deriving DecidableEq, Repr

namespace TransportCall

variable {ι Config : Type} [DecidableEq Config] (available : Config → Bool) (task : ι)

def program : TransportCall Config → TransportM ι Config TransportOutcome
  | .selectTransport config => .selected <$> StashiWallet.selectTransport available task config
  | .selectTransportIfUnset config =>
    .selected <$> StashiWallet.selectTransportIfUnset available task config
  | .getOrInit config => (.manager ∘ some) <$> StashiWallet.getOrInit available task config
  | .getMatching config => .manager <$> StashiWallet.getMatching config
  | .shutdown => (fun _ => .shutdown) <$> shutdownTransport task
  | .connect config pinned initializeTransport => do
    let generation ← query .loadGeneration
    (.manager ∘ some) <$> tryConnect available task config pinned initializeTransport generation
  | .probe config => do
    let generation ← query .loadGeneration
    (.manager ∘ some) <$> tryConnectForProbe config generation

/-- The configuration that a connection attempt asked for. -/
def requested : TransportCall Config → Option Config
  | .connect config _ _ | .probe config => some config
  | _ => none

end TransportCall

end StashiWallet
