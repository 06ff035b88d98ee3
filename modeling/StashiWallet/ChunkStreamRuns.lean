import StashiWallet.ChunkStream

/-!
# What the compact-block stream delivers

The consumer sees a list of chunks and, at the end, possibly an error. Every chunk that is sent
goes on one linked run of blocks: whoever delivers a block and whatever is retried, the block went
through the assembler, and what the assembler holds and what was sent make one run.
-/

namespace StashiWallet

open Interleaving StreamM

/-- What the consumer has been sent. -/
structure Delivered where
  chunks : List CompactBlockChunk
  error : Option ClientError
deriving DecidableEq, Repr

namespace Delivered

def blocks (delivered : Delivered) : List CompactBlockData := delivered.chunks.flatMap (·.blocks)

/-- What the consumer has been sent after a question and its answer. -/
def next (delivered : Delivered) : (statement : StreamStatement) → statement.Reply → Delivered
  | .send chunk, true => { delivered with chunks := delivered.chunks ++ [chunk] }
  | .sendError error, _ => { delivered with error := some error }
  | _, _ => delivered

end Delivered

/-- Follows a stream from `start` on: every chunk has to go on with the run, and nothing follows
an error. -/
def deliveryMonitor (start : Nat) :
    Monitor StreamStatement StreamStatement.Reply Delivered where
  start := ⟨[], none⟩
  next := Delivered.next
  Permits delivered statement := ∀ chunk, statement = .send chunk →
    delivered.error = none ∧ FormsRun start (delivered.blocks ++ chunk.blocks)

/-- The questions that are not about what the consumer is sent. -/
def StreamStatement.Asks : StreamStatement → Prop
  | .send _ | .sendError _ => False
  | _ => True

theorem next_of_asks {statement : StreamStatement} (h : statement.Asks) (delivered : Delivered)
    (reply : statement.Reply) : delivered.next statement reply = delivered := by
  cases statement with
  | send chunk => exact h.elim
  | sendError error => exact h.elim
  | _ => rfl

/-- What was sent and what the assembler holds are one run inside the range. A client whose
transport configuration does not build has not begun. -/
structure Delivering (client : StreamClient) (start stop : Nat) (delivered : Delivered)
    (assembler : OrderedBlockAssembler) : Prop where
  assembles : assembler.Assembles start delivered.blocks
  range : assembler.requestedEndExclusive = stop
  running : delivered.error = none
  configured : client.configError = none ∨ assembler.nextHeight = start

section Triples

variable (client : StreamClient) (start stop : Nat) {α β : Type}

/-- How a part of the stream may end: with an answer, with an error that ends the whole stream,
or with one after which the stream goes on from where the assembler is. -/
def Outcome (post : α → OrderedBlockAssembler → Prop) (stuck : OrderedBlockAssembler → Prop)
    (delivered : Delivered) : Except ClientError α × OrderedBlockAssembler → Prop
  | (.ok a, assembler) => Delivering client start stop delivered assembler ∧ post a assembler
  | (.error error, assembler) =>
    delivered.error = none ∧ FormsRun start delivered.blocks ∧
      (isFinal error = true ∨ Delivering client start stop delivered assembler ∧ stuck assembler)

/-- From a state with `pre`, the part of the stream ends in such an outcome. -/
def Streams (pre : OrderedBlockAssembler → Prop) (call : StreamM α)
    (post : α → OrderedBlockAssembler → Prop) (stuck : OrderedBlockAssembler → Prop) : Prop :=
  ∀ delivered assembler, Delivering client start stop delivered assembler → pre assembler →
    Prog.Obeys (deliveryMonitor start) (Outcome client start stop post stuck) delivered
      (call.run.run assembler)

variable {client start stop} {pre : OrderedBlockAssembler → Prop} {call : StreamM α}
  {post : α → OrderedBlockAssembler → Prop} {stuck : OrderedBlockAssembler → Prop}

variable {assembler : OrderedBlockAssembler} {delivered : Delivered}

theorem Delivering.formsRun (h : Delivering client start stop delivered assembler) :
    FormsRun start delivered.blocks :=
  h.assembles.run.left

theorem Outcome.stopped {error : ClientError} (h : Delivering client start stop delivered assembler)
    (hstuck : isFinal error = true ∨ stuck assembler) :
    Outcome client start stop post stuck delivered (.error error, assembler) :=
  ⟨h.running, h.formsRun, hstuck.imp_right fun hstuck => ⟨h, hstuck⟩⟩

theorem streams_pure {a : α} (h : ∀ assembler, pre assembler → post a assembler) :
    Streams client start stop pre (pure a) post stuck :=
  fun _ assembler hdelivering hpre => ⟨hdelivering, h assembler hpre⟩

theorem streams_throw {error : ClientError}
    (h : ∀ assembler, pre assembler → isFinal error = true ∨ stuck assembler) :
    Streams client start stop pre (throw error : StreamM α) post stuck :=
  fun _ assembler hdelivering hpre => Outcome.stopped hdelivering (h assembler hpre)

theorem Streams.bind {post' : β → OrderedBlockAssembler → Prop} {rest : α → StreamM β}
    (hcall : Streams client start stop pre call post stuck)
    (hrest : ∀ a, Streams client start stop (post a) (rest a) post' stuck) :
    Streams client start stop pre (call >>= rest) post' stuck := by
  intro delivered assembler hdelivering hpre
  have hcall' := hcall delivered assembler hdelivering hpre
  refine Prog.obeys_bind.mpr (hcall'.imp ?_)
  rintro delivered' ⟨result, assembler'⟩ houtcome
  cases result with
  | ok a =>
    obtain ⟨hdelivering', hpost⟩ := houtcome
    exact hrest a delivered' assembler' hdelivering' hpost
  | error error => exact houtcome

theorem Streams.imp {pre' : OrderedBlockAssembler → Prop}
    {post' : α → OrderedBlockAssembler → Prop} {stuck' : OrderedBlockAssembler → Prop}
    (h : Streams client start stop pre call post stuck)
    (hpre : ∀ assembler, pre' assembler → pre assembler)
    (hpost : ∀ a assembler, post a assembler → post' a assembler)
    (hstuck : ∀ assembler, stuck assembler → stuck' assembler) :
    Streams client start stop pre' call post' stuck' := by
  intro delivered assembler hdelivering hpre'
  refine (h delivered assembler hdelivering (hpre assembler hpre')).imp ?_
  rintro delivered' ⟨result, assembler'⟩ houtcome
  cases result with
  | ok a => exact houtcome.imp_right (hpost a assembler')
  | error error =>
    exact ⟨houtcome.1, houtcome.2.1, houtcome.2.2.imp_right fun h => h.imp_right (hstuck _)⟩

/-- A question to the surroundings changes nothing. -/
theorem streams_ask {statement : StreamStatement} {rest : statement.Reply → StreamM α}
    (h : statement.Asks) (hrest : ∀ reply, Streams client start stop pre (rest reply) post stuck) :
    Streams client start stop pre (ask statement >>= rest) post stuck := by
  intro delivered assembler hdelivering hpre
  refine ⟨?_, ?_⟩
  · rintro chunk rfl
    exact h.elim
  · intro reply
    have hsame : (deliveryMonitor start).next delivered statement reply = delivered :=
      next_of_asks h delivered reply
    rw [hsame]
    exact hrest reply delivered assembler hdelivering hpre

theorem streams_nextHeight {rest : Nat → StreamM α}
    (hrest : ∀ height, Streams client start stop
      (fun assembler => pre assembler ∧ assembler.nextHeight = height) (rest height) post stuck) :
    Streams client start stop pre (nextHeight >>= rest) post stuck :=
  fun delivered assembler hdelivering hpre =>
    hrest assembler.nextHeight delivered assembler hdelivering ⟨hpre, rfl⟩

/-- What follows an attempt is told whether it failed; an error that ends the stream is passed
on. -/
theorem streams_attempt {post' : β → OrderedBlockAssembler → Prop}
    {stuck' : OrderedBlockAssembler → Prop} {rest : Except ClientError α → StreamM β}
    (hcall : Streams client start stop pre call post stuck)
    (hfinal : ∀ error, isFinal error = true → rest (.error error) = throw error)
    (hok : ∀ a, Streams client start stop (post a) (rest (.ok a)) post' stuck')
    (herror : ∀ error, isFinal error = false →
      Streams client start stop stuck (rest (.error error)) post' stuck') :
    Streams client start stop pre (attempt call >>= rest) post' stuck' := by
  intro delivered assembler hdelivering hpre
  have hcall' := hcall delivered assembler hdelivering hpre
  refine Prog.obeys_bind.mpr (Prog.obeys_bind.mpr (hcall'.imp ?_))
  rintro delivered' ⟨result, assembler'⟩ houtcome
  cases result with
  | ok a => exact hok a delivered' assembler' houtcome.1 houtcome.2
  | error error =>
    cases hkind : isFinal error with
    | true =>
      have hthrow := hfinal error hkind
      show Prog.Obeys _ _ _ ((rest (.error error)).run.run assembler')
      rw [hthrow]
      exact ⟨houtcome.1, houtcome.2.1, .inl hkind⟩
    | false =>
      obtain ⟨hdelivering', hstuck⟩ := houtcome.2.2.resolve_left (by simp [hkind])
      exact herror error hkind delivered' assembler' hdelivering' hstuck

/-! ## Blocks -/

theorem blocks_of_send (delivered : Delivered) (chunk : CompactBlockChunk) :
    Delivered.blocks ((deliveryMonitor start).next delivered (.send chunk) true) =
      delivered.blocks ++ chunk.blocks := by
  show (delivered.chunks ++ [chunk]).flatMap _ = _
  rw [List.flatMap_append, List.flatMap_singleton]
  rfl

/-- A chunk taken out of the assembler is sent, or the consumer is gone. -/
theorem sendOrderedChunk_obeys {post : Unit → OrderedBlockAssembler → Prop}
    {chunk : OrderedBlockChunk} (endpoint : String) (hrunning : delivered.error = none)
    (hassembles : assembler.Assembles start (delivered.blocks ++ chunk.blocks))
    (hrange : assembler.requestedEndExclusive = stop)
    (hconfigured : client.configError = none ∨ assembler.nextHeight = start)
    (hpost : post () assembler) :
    Prog.Obeys (deliveryMonitor start) (Outcome client start stop post stuck) delivered
      ((sendOrderedChunk chunk endpoint).run.run assembler) := by
  refine ⟨?_, ?_⟩
  · rintro sent heq
    cases heq
    exact ⟨hrunning, hassembles.run.left⟩
  · intro reply
    cases reply with
    | true =>
      refine ⟨⟨?_, hrange, hrunning, hconfigured⟩, hpost⟩
      rw [blocks_of_send]
      exact hassembles
    | false => exact ⟨hrunning, hassembles.run.left.left, .inl rfl⟩

theorem setNextChunkMaxBlocks_range (assembler : OrderedBlockAssembler) (maxBlocks : Nat) :
    (assembler.setNextChunkMaxBlocks maxBlocks).requestedEndExclusive =
      assembler.requestedEndExclusive := by
  unfold OrderedBlockAssembler.setNextChunkMaxBlocks
  split <;> rfl

/-- A block goes on with the run, or is refused and changes nothing. -/
theorem streams_pushBlock (hconfig : client.configError = none) (block : CompactBlockData)
    (encodedBytes : Nat) (endpoint : String) :
    Streams client start stop (fun _ => True) (pushBlock block encodedBytes endpoint)
      (fun _ _ => True) (fun _ => True) := by
  refine streams_ask (by trivial) ?_
  intro maxBlocks delivered assembler hdelivering _
  have hassembles := hdelivering.assembles.setNextChunkMaxBlocks maxBlocks
  have hrange := setNextChunkMaxBlocks_range assembler maxBlocks
  show Prog.Obeys _ _ _ (ExceptT.run (pushed endpoint
    ((assembler.setNextChunkMaxBlocks maxBlocks).push block encodedBytes).1)
    ((assembler.setNextChunkMaxBlocks maxBlocks).push block encodedBytes).2)
  by_cases haccepts : (assembler.setNextChunkMaxBlocks maxBlocks).Accepts block
  · rw [OrderedBlockAssembler.push_of_accepts haccepts]
    obtain ⟨hafter, -⟩ := hassembles.accept haccepts encodedBytes
    obtain ⟨-, -, hkept⟩ := OrderedBlockAssembler.accept_keeps
      (assembler.setNextChunkMaxBlocks maxBlocks) block encodedBytes
    have hrange' := hkept.trans (hrange.trans hdelivering.range)
    generalize (assembler.setNextChunkMaxBlocks maxBlocks).accept block encodedBytes = accepted
      at hafter hrange'
    obtain ⟨chunk, after⟩ := accepted
    cases chunk with
    | none =>
      refine ⟨⟨?_, hrange', hdelivering.running, .inl hconfig⟩, trivial⟩
      simpa using hafter
    | some chunk =>
      refine sendOrderedChunk_obeys endpoint hdelivering.running ?_ hrange' (.inl hconfig) trivial
      simpa using hafter
  · obtain ⟨message, hrejected⟩ := OrderedBlockAssembler.push_of_not_accepts haccepts encodedBytes
    rw [hrejected]
    exact Outcome.stopped
      ⟨hassembles, hrange.trans hdelivering.range, hdelivering.running, .inl hconfig⟩
      (.inr trivial)

theorem streams_pushBlocks (hconfig : client.configError = none) (endpoint : String)
    (blocks : List (CompactBlockData × Nat)) :
    Streams client start stop (fun _ => True) (pushBlocks endpoint blocks)
      (fun _ _ => True) (fun _ => True) := by
  induction blocks with
  | nil => exact streams_pure fun _ _ => trivial
  | cons entry blocks ih =>
    exact Streams.bind (streams_pushBlock hconfig entry.1 entry.2 endpoint) fun _ => ih

theorem takePartial_keeps (assembler : OrderedBlockAssembler) :
    assembler.takePartial.2.requestedEndExclusive = assembler.requestedEndExclusive ∧
      assembler.takePartial.2.nextHeight = assembler.nextHeight := by
  unfold OrderedBlockAssembler.takePartial
  split <;> exact ⟨rfl, rfl⟩

/-- What the assembler holds is sent. -/
theorem streams_sendPartial (hconfig : client.configError = none) (endpoint : String) :
    Streams client start stop (fun _ => True) (sendPartial endpoint) (fun _ _ => True)
      (fun _ => False) := by
  intro delivered assembler hdelivering _
  have hafter := hdelivering.assembles.takePartial
  have hrange := (takePartial_keeps assembler).1.trans hdelivering.range
  show Prog.Obeys _ _ _
    (ExceptT.run (sendTaken endpoint assembler.takePartial.1) assembler.takePartial.2)
  generalize assembler.takePartial = taken at hafter hrange
  obtain ⟨chunk, after⟩ := taken
  cases chunk with
  | none =>
    refine ⟨⟨?_, hrange, hdelivering.running, .inl hconfig⟩, trivial⟩
    simpa using hafter
  | some chunk =>
    refine sendOrderedChunk_obeys endpoint hdelivering.running ?_ hrange (.inl hconfig) trivial
    simpa using hafter

/-! ## One endpoint -/

/-- The check of the transport passes only for a client whose configuration builds. -/
theorem ensureSelectedTransport_obeys
    {Q : Delivered → Except ClientError Unit × OrderedBlockAssembler → Prop}
    (hok : client.configError = none → Q delivered (.ok (), assembler))
    (herror : ∀ error, isFinal error = true ∨ client.configError = some error →
      Q delivered (.error error, assembler)) :
    Prog.Obeys (deliveryMonitor start) Q delivered
      (client.ensureSelectedTransport.run.run assembler) := by
  unfold StreamClient.ensureSelectedTransport
  refine ⟨fun _ => nofun, ?_⟩
  intro current
  cases current with
  | false => exact herror .cancelled (.inl rfl)
  | true =>
    cases hconfig : client.configError with
    | some error =>
      dsimp only
      exact herror error (.inr hconfig)
    | none =>
      dsimp only
      refine ⟨fun _ => nofun, ?_⟩
      intro desired
      cases desired with
      | false => exact herror .cancelled (.inl rfl)
      | true => exact hok hconfig

theorem streams_ensureSelectedTransport {rest : Unit → StreamM α}
    (hconfigured : client.configError = none)
    (hrest : Streams client start stop pre (rest ()) post stuck) :
    Streams client start stop pre (client.ensureSelectedTransport >>= rest) post stuck := by
  intro delivered assembler hdelivering hpre
  refine Prog.obeys_bind.mpr (ensureSelectedTransport_obeys ?_ ?_)
  · exact fun _ => hrest delivered assembler hdelivering hpre
  · rintro error (hfinal | hconfig)
    · exact Outcome.stopped hdelivering (.inl hfinal)
    · rw [hconfigured] at hconfig
      cases hconfig

/-- A candidate is connected only for a client whose configuration builds. -/
theorem streams_connectedCandidate {index : Nat} {rest : Option String → StreamM α}
    (hnone : Streams client start stop pre (rest none) post stuck)
    (hsome : client.configError = none → ∀ endpoint,
      Streams client start stop pre (rest (some endpoint)) post stuck) :
    Streams client start stop pre (client.connectedCandidate index >>= rest) post stuck := by
  intro delivered assembler hdelivering hpre
  refine Prog.obeys_bind.mpr (Prog.obeys_bind.mpr (Prog.obeys_bind.mpr
    (ensureSelectedTransport_obeys ?_ ?_)))
  · intro hconfig
    refine ⟨fun _ => nofun, ?_⟩
    intro reply
    cases reply with
    | none => exact hnone delivered assembler hdelivering hpre
    | some endpoint => exact hsome hconfig endpoint delivered assembler hdelivering hpre
  · exact fun _ _ => hnone delivered assembler hdelivering hpre

theorem streams_streamCompactBlocksOnce (hconfig : client.configError = none)
    (endpoint : String) (attemptStart endExclusive : Nat) :
    Streams client start stop (fun assembler => assembler.nextHeight = attemptStart)
      (client.streamCompactBlocksOnce endpoint attemptStart endExclusive)
      (fun _ assembler => endExclusive ≤ assembler.nextHeight) (fun _ => True) := by
  unfold StreamClient.streamCompactBlocksOnce
  dsimp only
  split
  · rename_i hempty
    exact streams_pure fun _ hnext => hnext ▸ hempty
  split
  · exact streams_throw fun _ _ => .inr trivial
  split
  · exact streams_throw fun _ _ => .inr trivial
  refine streams_ensureSelectedTransport hconfig ?_
  refine streams_ask (by trivial) ?_
  intro answer
  cases answer with
  | error error => exact streams_throw fun _ _ => .inr trivial
  | ok stream =>
    refine Streams.bind ((streams_pushBlocks hconfig endpoint stream.messages).imp
      (fun _ _ => trivial) (fun _ _ h => h) (fun _ h => h)) ?_
    intro _
    cases stream.failure with
    | some error => exact streams_throw fun _ _ => .inr trivial
    | none =>
      refine streams_nextHeight ?_
      intro height
      split
      · rename_i hdone
        exact streams_pure fun _ h => h.2 ▸ hdone
      · refine streams_nextHeight ?_
        intro height
        exact streams_throw fun _ _ => .inr trivial

theorem streams_tryCandidates (endExclusive : Nat) (candidates : List Nat)
    (lastError : Option ClientError) :
    Streams client start stop (fun _ => True)
      (client.tryCandidates endExclusive candidates lastError)
      (fun tried assembler => tried.1 = true → endExclusive ≤ assembler.nextHeight)
      (fun _ => False) := by
  induction candidates generalizing lastError with
  | nil => exact streams_pure fun _ _ => nofun
  | cons index rest ih =>
    unfold StreamClient.tryCandidates
    refine streams_connectedCandidate (ih _) ?_
    intro hconfig endpoint
    refine streams_nextHeight ?_
    intro attemptStart
    refine streams_attempt ((streams_streamCompactBlocksOnce hconfig endpoint attemptStart
      endExclusive).imp (fun _ h => h.2) (fun _ _ h => h) (fun _ h => h)) ?_ ?_ ?_
    · intro error hfinal
      exact if_pos hfinal
    · intro _
      refine streams_nextHeight ?_
      intro height
      split
      · rename_i hdone
        exact streams_pure fun _ h _ => h.2 ▸ hdone
      · exact (ih lastError).imp (fun _ _ => trivial) (fun _ _ h => h) (fun _ h => h)
    · intro error hretry
      dsimp only
      rw [if_neg (by simp [hretry])]
      exact Streams.bind (streams_sendPartial hconfig endpoint) fun _ => ih _

theorem streams_ensureOpen : Streams client start stop pre ensureOpen (fun _ => pre) stuck := by
  refine streams_ask (by trivial) ?_
  intro closed
  split
  · exact streams_throw fun _ _ => .inl rfl
  · exact streams_pure fun _ h => h

theorem streams_streamRounds (hconfig : client.configError = none) (endExclusive rounds : Nat)
    (lastError : Option ClientError) :
    Streams client start stop (fun _ => True)
      (client.streamRounds endExclusive rounds lastError)
      (fun _ assembler => endExclusive ≤ assembler.nextHeight)
      (fun assembler => assembler.nextHeight < endExclusive) := by
  induction rounds generalizing lastError with
  | zero =>
    unfold StreamClient.streamRounds
    refine streams_nextHeight ?_
    intro height
    split
    · rename_i hdone
      exact streams_pure fun _ h => h.2 ▸ hdone
    · rename_i hopen
      exact streams_throw fun _ h => .inr (h.2 ▸ not_le.mp hopen)
  | succ rounds ih =>
    unfold StreamClient.streamRounds
    refine streams_nextHeight ?_
    intro height
    split
    · rename_i hdone
      exact streams_pure fun _ h => h.2 ▸ hdone
    refine streams_ensureSelectedTransport hconfig ?_
    refine Streams.imp ?_ (fun _ _ => trivial) (fun _ _ h => h) (fun _ h => h)
    refine Streams.bind streams_ensureOpen fun _ => ?_
    refine streams_ask (by trivial) ?_
    intro candidates
    refine Streams.bind ((streams_tryCandidates endExclusive candidates _).imp
      (fun _ _ => trivial) (fun _ _ h => h) (fun _ => False.elim)) ?_
    intro tried
    split
    · rename_i hdone
      exact streams_pure fun _ h => h hdone
    refine Streams.imp ?_ (fun _ _ => trivial) (fun _ _ h => h) (fun _ h => h)
    have hwait : Streams client start stop (fun _ => True)
        (do
          let height ← nextHeight
          if decide (height < endExclusive) && decide (0 < rounds) then ensureOpen
          client.streamRounds endExclusive rounds tried.2)
        (fun _ assembler => endExclusive ≤ assembler.nextHeight)
        (fun assembler => assembler.nextHeight < endExclusive) := by
      refine streams_nextHeight ?_
      intro height
      refine Streams.imp ?_ (fun _ _ => trivial) (fun _ _ h => h) (fun _ h => h)
      dsimp only
      split
      · exact Streams.bind streams_ensureOpen fun _ => ih _
      · exact ih _
    dsimp only
    split
    · exact Streams.bind streams_ensureOpen fun _ => hwait
    · exact hwait

/-- `stream_remaining_with_failover` ends at the end it was given, or below the range's end. -/
theorem streams_streamRemaining (hstart : start < stop) {endExclusive : Nat}
    (hend : endExclusive ≤ stop) :
    Streams client start stop (fun _ => True) (client.streamRemainingWithFailover endExclusive)
      (fun _ assembler => endExclusive ≤ assembler.nextHeight)
      (fun assembler => assembler.nextHeight < stop) := by
  unfold StreamClient.streamRemainingWithFailover
  cases hconfig : client.configError with
  | none =>
    refine streams_ensureSelectedTransport hconfig ?_
    exact (streams_streamRounds hconfig endExclusive _ none).imp (fun _ _ => trivial)
      (fun _ _ h => h) (fun _ h => Nat.lt_of_lt_of_le h hend)
  | some error =>
    intro delivered assembler hdelivering _
    refine Prog.obeys_bind.mpr (ensureSelectedTransport_obeys ?_ ?_)
    · intro hnone
      rw [hconfig] at hnone
      cases hnone
    · intro error' herror
      refine Outcome.stopped hdelivering (herror.imp_right fun _ => ?_)
      rcases hdelivering.configured with hnone | hnext
      · rw [hconfig] at hnone
        cases hnone
      · rw [hnext]
        exact hstart

theorem streams_streamProbing (hstart : start < stop) (fuel : Nat) :
    Streams client start stop (fun _ => True) (client.streamProbing stop fuel)
      (fun _ _ => True) (fun assembler => assembler.nextHeight < stop) := by
  induction fuel with
  | zero => exact streams_pure fun _ _ => trivial
  | succ fuel ih =>
    unfold StreamClient.streamProbing
    refine streams_ask (by trivial) ?_
    intro probed
    split
    · exact streams_pure fun _ _ => trivial
    refine streams_nextHeight ?_
    intro height
    split
    · exact streams_pure fun _ _ => trivial
    refine Streams.bind ((streams_streamRemaining hstart (min_le_right _ _)).imp
      (fun _ _ => trivial) (fun _ _ _ => trivial) (fun _ h => h)) ?_
    exact fun _ => ih

/-! ## Stripes -/

/-- A plan has sources. -/
theorem streams_historicalStripePlan (planStart endExclusive : Nat) :
    Streams client start stop (fun _ => True)
      (client.historicalStripePlan planStart endExclusive)
      (fun plan _ => ∀ found, plan = some found → found.candidateIndices ≠ []) stuck := by
  unfold StreamClient.historicalStripePlan
  dsimp only
  split
  · exact streams_pure fun _ _ => nofun
  refine streams_ask (by trivial) ?_
  intro sources
  cases sources with
  | none => exact streams_pure fun _ _ => nofun
  | some sources =>
    obtain ⟨indices, tip⟩ := sources
    dsimp only
    split
    · exact streams_pure fun _ _ => nofun
    · rename_i hfit
      refine streams_pure fun _ _ found hfound hempty => ?_
      obtain rfl := Option.some.inj hfound
      refine hfit (.inl ?_)
      have hnil : indices = [] := hempty
      simp [hnil]

/-- A worker starts only for a client whose configuration builds. -/
theorem streams_startWorker (index : Nat) :
    Streams client start stop pre (client.startWorker index)
      (fun _ _ => client.configError = none) (fun _ => True) := by
  refine streams_connectedCandidate (streams_throw fun _ _ => .inr trivial) ?_
  exact fun hconfig _ => streams_pure fun _ _ => hconfig

theorem streams_startWorkers {candidateIndices : List Nat} (h : candidateIndices ≠ []) :
    Streams client start stop pre (candidateIndices.forM client.startWorker)
      (fun _ _ => client.configError = none) (fun _ => True) := by
  obtain ⟨index, rest, rfl⟩ := List.exists_cons_of_ne_nil h
  refine Streams.bind (streams_startWorker index) fun _ => ?_
  clear h
  induction rest with
  | nil => exact streams_pure fun _ hconfig => hconfig
  | cons index rest ih => exact Streams.bind (streams_startWorker index) fun _ => ih

/-- A part of the stream that only ever pushes blocks. -/
def StreamSafe (client : StreamClient) (start stop : Nat) (call : StreamM α) : Prop :=
  Streams client start stop (fun _ => True) call (fun _ _ => True) (fun _ => True)

theorem safe_pure (a : α) : StreamSafe client start stop (pure a) := streams_pure fun _ _ => trivial

theorem safe_throw (error : ClientError) : StreamSafe client start stop (throw error : StreamM α) :=
  streams_throw fun _ _ => .inr trivial

theorem StreamSafe.bind {rest : α → StreamM β} (hcall : StreamSafe client start stop call)
    (hrest : ∀ a, StreamSafe client start stop (rest a)) :
    StreamSafe client start stop (call >>= rest) :=
  Streams.bind hcall hrest

theorem safe_nextHeight {rest : Nat → StreamM α}
    (h : ∀ height, StreamSafe client start stop (rest height)) :
    StreamSafe client start stop (nextHeight >>= rest) :=
  streams_nextHeight fun height =>
    (h height).imp (fun _ _ => trivial) (fun _ _ h => h) (fun _ h => h)

theorem safe_assignRanges (planEnd : Nat) (idle : List Nat) (stripes : StreamCoordinator) :
    StreamSafe client start stop (assignRanges planEnd idle stripes) := by
  induction idle generalizing stripes with
  | nil => exact safe_pure _
  | cons worker rest ih =>
    unfold assignRanges
    split
    · exact ih _
    split
    · exact safe_pure _
    · refine streams_ask (by trivial) ?_
      intro accepted
      split
      · exact ih _
      · exact ih _

theorem safe_flush (hconfig : client.configError = none) (fuel : Nat)
    (stripes : StreamCoordinator) :
    StreamSafe client start stop (flushCanonicalStripeChunks fuel stripes) := by
  induction fuel generalizing stripes with
  | zero => exact safe_pure _
  | succ fuel ih =>
    unfold flushCanonicalStripeChunks
    refine safe_nextHeight ?_
    intro height
    split
    · exact safe_pure _
    · exact StreamSafe.bind (streams_pushBlocks hconfig _ _) fun _ => ih _

theorem safe_bufferChunk (worker : Nat) (range : StripeRange) (chunk : CompactBlockChunk)
    (stripes : StreamCoordinator) :
    StreamSafe client start stop (bufferChunk worker range chunk stripes) := by
  unfold bufferChunk
  split
  · refine safe_nextHeight ?_
    intro height
    split
    · exact safe_throw _
    · exact safe_pure _
  · exact safe_throw _

theorem safe_failRange (hconfig : client.configError = none) (maxAttempts worker : Nat)
    (range : StripeRange) (resumeHeight : Nat) (error : ClientError)
    (stripes : StreamCoordinator) :
    StreamSafe client start stop (failRange maxAttempts worker range resumeHeight error stripes) := by
  unfold failRange
  dsimp only
  split
  · exact StreamSafe.bind (safe_flush hconfig _ _) fun _ => safe_throw _
  · exact safe_pure _

/-- Whatever the workers send, the coordinator only ever pushes blocks. -/
theorem safe_coordinate (hconfig : client.configError = none) (maxAttempts planEnd : Nat)
    (events : List StripeEvent) (stripes : StreamCoordinator) :
    StreamSafe client start stop (coordinate maxAttempts planEnd events stripes) := by
  induction events generalizing stripes with
  | nil =>
    unfold coordinate
    refine StreamSafe.bind (safe_assignRanges _ _ _) fun assigned => ?_
    refine StreamSafe.bind (safe_flush hconfig _ _) fun flushed => ?_
    refine safe_nextHeight fun height => ?_
    dsimp only
    split
    · exact safe_pure _
    split
    · exact safe_throw _
    · exact safe_throw _
  | cons event events ih =>
    unfold coordinate
    refine StreamSafe.bind (safe_assignRanges _ _ _) fun assigned => ?_
    refine StreamSafe.bind (safe_flush hconfig _ _) fun flushed => ?_
    refine safe_nextHeight fun height => ?_
    dsimp only
    split
    · exact safe_pure _
    cases event with
    | chunk worker range chunk =>
      have hgoes := StreamSafe.bind (safe_bufferChunk worker range chunk flushed) ih
      split
      · exact StreamSafe.bind (safe_throw _) fun _ => hgoes
      · exact hgoes
    | complete worker =>
      split
      · exact StreamSafe.bind (safe_throw _) fun _ => ih _
      · exact ih _
    | failed worker range resumeHeight error =>
      have hgoes := StreamSafe.bind
        (safe_failRange hconfig maxAttempts worker range resumeHeight error flushed) ih
      split
      · exact StreamSafe.bind (safe_throw _) fun _ => hgoes
      · exact hgoes

theorem safe_streamHistoricalStripes {plan : HistoricalStripePlan}
    (h : plan.candidateIndices ≠ []) :
    StreamSafe client start stop (client.streamHistoricalStripes plan) := by
  unfold StreamClient.streamHistoricalStripes
  refine Streams.bind (streams_startWorkers h) fun _ => ?_
  intro delivered assembler hdelivering hconfig
  have hrest : StreamSafe client start stop (do
      let events ← ask .stripeEvents
      coordinate client.maxAttempts plan.endExclusive events
        (.initial plan.candidateIndices.length (← nextHeight))) :=
    streams_ask (by trivial) fun events =>
      safe_nextHeight fun height => safe_coordinate hconfig _ _ _ _
  exact hrest delivered assembler hdelivering trivial

/-- The three phases end at the end of the range, or the stream is stuck below it. -/
theorem streams_streamRange (hstart : start < stop) :
    Streams client start stop (fun _ => True) (client.streamRange start stop)
      (fun _ assembler => stop ≤ assembler.nextHeight)
      (fun assembler => assembler.nextHeight < stop) := by
  have hremaining := @streams_streamRemaining client start stop hstart stop (le_refl stop)
  unfold StreamClient.streamRange
  dsimp only
  split
  on_goal 1 => refine Streams.bind (streams_streamProbing hstart _) fun _ => ?_
  all_goals
    refine streams_nextHeight fun height => ?_
    refine Streams.imp ?_ (fun _ _ => trivial) (fun _ _ h => h) (fun _ h => h)
    refine Streams.bind (streams_historicalStripePlan height stop) fun plan => ?_
    cases plan with
    | none => exact hremaining.imp (fun _ _ => trivial) (fun _ _ h => h) (fun _ h => h)
    | some plan =>
      intro delivered assembler hdelivering hsources
      refine streams_attempt (safe_streamHistoricalStripes (hsources plan rfl)) ?_ ?_ ?_
        delivered assembler hdelivering trivial
      · exact fun error hfinal => if_pos hfinal
      · exact fun _ => hremaining
      · intro error hretry
        dsimp only
        rw [if_neg (by simp [hretry])]
        exact hremaining

end Triples

/-! ## The whole stream -/

/-- The blocks are the range, in order and linked. -/
structure DeliversRange (start stop : Nat) (delivered : Delivered) : Prop where
  run : FormsRun start delivered.blocks
  length : delivered.blocks.length = stop - start

/-- How the producer ends: with the whole range, with an error that ends the stream at once, or
below the end of the range. -/
def Produced (start stop : Nat) (delivered : Delivered) (result : Except ClientError Unit) :
    Prop :=
  delivered.error = none ∧ FormsRun start delivered.blocks ∧
    (result = .ok () → DeliversRange start stop delivered) ∧
    ∀ error, result = .error error → isFinal error = false →
      start + delivered.blocks.length < stop

theorem sendFinished_obeys {client : StreamClient} {start stop : Nat} {delivered : Delivered}
    {assembler : OrderedBlockAssembler}
    (hdelivering : Delivering client start stop delivered assembler)
    (hend : stop ≤ assembler.nextHeight) :
    Prog.Obeys (deliveryMonitor start) (fun delivered r => Produced start stop delivered r.1)
      delivered (client.sendFinished.run.run assembler) := by
  have hassembles := hdelivering.assembles
  have hnext : assembler.nextHeight = stop := by
    have hinside := hassembles.inside
    rw [hdelivering.range] at hinside
    omega
  have hfinish : assembler.finish = .ok assembler.takePartial.1 := by
    unfold OrderedBlockAssembler.finish OrderedBlockAssembler.isComplete
    rw [hnext, hdelivering.range, beq_self_eq_true]
    rfl
  have hcovers : ∀ sent : Delivered, sent.blocks = delivered.blocks ++ assembler.blocks →
      DeliversRange start stop sent := by
    intro sent hsent
    refine ⟨hsent ▸ hassembles.run, ?_⟩
    have hlength := hassembles.next
    rw [hsent]
    omega
  have hsends : client.sendFinished.run.run assembler =
      (sendTaken client.endpoint assembler.takePartial.1).run.run assembler := by
    unfold StreamClient.sendFinished
    rw [ExceptT.run_bind]
    unfold StateT.run
    dsimp only [bind, StateT.bind, ExceptT.run, get, getThe, MonadStateOf.get, liftM, monadLift,
      MonadLift.monadLift, ExceptT.lift, ExceptT.mk, StateT.get, Functor.map, StateT.map, pure,
      Prog.bind]
    rw [hfinish]
  rw [hsends]
  by_cases hempty : assembler.blocks = []
  · rw [OrderedBlockAssembler.takePartial_of_empty hempty]
    exact ⟨hdelivering.running, hdelivering.formsRun,
      fun _ => hcovers delivered (by rw [hempty, List.append_nil]), nofun⟩
  · rw [OrderedBlockAssembler.takePartial_of_ne_nil hempty]
    refine ⟨?_, ?_⟩
    · rintro sent heq
      cases heq
      exact ⟨hdelivering.running, hassembles.run⟩
    · intro reply
      cases reply with
      | true =>
        have hsent := hcovers ((deliveryMonitor start).next delivered (.send ⟨assembler.blocks,
          assembler.encodedBlockBytes, assembler.encodedBytes, client.endpoint⟩) true)
          (blocks_of_send _ _)
        exact ⟨hdelivering.running, hsent.run, fun _ => hsent, nofun⟩
      | false =>
        refine ⟨hdelivering.running, hdelivering.formsRun, nofun, ?_⟩
        rintro error ⟨⟩ hretry
        exact absurd hretry (by decide)

theorem produceFrom_obeys (client : StreamClient) {start stop maxBytes maxBlocks : Nat}
    (hstart : start < stop) (hstop : stop ≤ u64Max) :
    Prog.Obeys (deliveryMonitor start) (Produced start stop) ⟨[], none⟩
      (client.produceFrom start stop
        (OrderedBlockAssembler.withLimits start stop maxBytes maxBlocks)) := by
  cases hlimits : OrderedBlockAssembler.withLimits start stop maxBytes maxBlocks with
  | error error => exact ⟨rfl, formsRun_nil start, nofun, fun _ _ _ => hstart⟩
  | ok assembler =>
    have hassembles := OrderedBlockAssembler.assembles_of_withLimits hstop hlimits
    have hdelivering : Delivering client start stop ⟨[], none⟩ assembler := by
      unfold OrderedBlockAssembler.withLimits at hlimits
      rw [if_neg (by omega)] at hlimits
      obtain rfl := Except.ok.inj hlimits
      exact ⟨hassembles, rfl, rfl, .inr rfl⟩
    refine Prog.obeys_bind.mpr (Prog.obeys_bind.mpr ?_)
    refine (streams_streamRange hstart _ _ hdelivering trivial).imp ?_
    rintro delivered ⟨result, after⟩ houtcome
    cases result with
    | ok _ => exact sendFinished_obeys houtcome.1 houtcome.2
    | error error =>
      obtain ⟨hrunning, hrun, hkind⟩ := houtcome
      refine ⟨hrunning, hrun, nofun, ?_⟩
      rintro error' ⟨⟩ hretry
      obtain ⟨hstuck, hbelow⟩ := hkind.resolve_left (by simp [hretry])
      have hnext := hstuck.assembles.next
      rw [List.length_append] at hnext
      omega

theorem produceCompactBlockChunks_obeys (client : StreamClient) {start stop : Nat}
    (maxChunkBytes : Nat) (hstop : stop ≤ u64Max) :
    Prog.Obeys (deliveryMonitor start) (Produced start stop) ⟨[], none⟩
      (client.produceCompactBlockChunks start stop maxChunkBytes) := by
  have hnil : FormsRun start (Delivered.blocks ⟨[], none⟩) := formsRun_nil start
  unfold StreamClient.produceCompactBlockChunks
  split
  · rename_i hempty
    refine ⟨rfl, hnil, fun _ => ⟨hnil, ?_⟩, nofun⟩
    show 0 = stop - start
    omega
  · rename_i hrange
    refine ⟨fun _ => nofun, ?_⟩
    exact fun _ => produceFrom_obeys client (not_le.mp hrange) hstop

/-- How a stream over a range ends: with one linked run sent from its start on, the whole range if
there is no error, and a final error if there is one after the whole range. -/
structure StreamEnds (start stop : Nat) (delivered : Delivered) : Prop where
  run : FormsRun start delivered.blocks
  complete : delivered.error = none → DeliversRange start stop delivered
  failed : ∀ error, delivered.error = some error → DeliversRange start stop delivered →
    isFinal error = true

/-- **Delivery.** Whatever the surroundings answer, what is sent is one linked run from the start
of the range on; a stream that ends without an error has delivered the whole range, and one that
ends with an error after the whole range was cancelled, or its error is not retried. -/
theorem compactBlockSegmentStream_delivers (client : StreamClient) (range : UInt32 × UInt32)
    (maxChunkBytes : Nat) :
    Prog.Obeys (deliveryMonitor range.1.toNat)
      (fun delivered _ => StreamEnds range.1.toNat range.2.toNat delivered)
      (deliveryMonitor range.1.toNat).start
      (client.compactBlockSegmentStream range maxChunkBytes) := by
  have hstop : range.2.toNat ≤ u64Max := by
    have hlt := range.2.toNat_lt
    unfold u64Max
    omega
  refine Prog.obeys_bind.mpr
    ((produceCompactBlockChunks_obeys client maxChunkBytes hstop).imp ?_)
  rintro delivered result ⟨hrunning, hrun, hok, herror⟩
  cases result with
  | ok _ =>
    refine ⟨hrun, fun _ => hok rfl, ?_⟩
    intro error hfailed
    rw [hrunning] at hfailed
    cases hfailed
  | error error =>
    refine ⟨fun _ => nofun, fun reply => ⟨hrun, nofun, ?_⟩⟩
    rintro _ ⟨⟩ hcovers
    cases hkind : isFinal error with
    | true => rfl
    | false =>
      have hbelow := herror error rfl hkind
      have hlength : delivered.blocks.length = range.2.toNat - range.1.toNat := hcovers.length
      omega

/-- A block, and a server that delivers it and then denies the request. -/
def deliveredBlock : CompactBlockData :=
  ⟨1, 1, List.replicate 32 1, List.replicate 32 0, 0, [], []⟩

def denyingServer : Unit → (statement : StreamStatement) → statement.Reply × Unit
  | (), .generationIsCurrent | (), .transportIsDesired | (), .poolIsProbed
  | (), .sendCommand _ _ | (), .send _ | (), .sendError _ => (true, ())
  | (), .isClosed => (false, ())
  | (), .loadSegmentBlockTarget => (1, ())
  | (), .candidateOrder _ => ([0], ())
  | (), .connectedCandidate _ => (some "https://lightd.example", ())
  | (), .getBlockRange _ _ =>
    (.ok ⟨[(deliveredBlock, 1)], some (.status .permissionDenied "denied")⟩, ())
  | (), .stripeSources _ => (none, ())
  | (), .stripeEvents => ([], ())

/-- A client of that server. -/
def deniedClient : StreamClient := ⟨"https://lightd.example", false, false, 1, none⟩

/-- An error can follow the whole range: the last block is sent, and the server then ends the
stream with an error that is not retried. -/
theorem error_follows_range :
    ¬ Prog.Obeys (deliveryMonitor 1)
      (fun delivered _ => delivered.error = none ↔ DeliversRange 1 2 delivered)
      (deliveryMonitor 1).start (deniedClient.compactBlockSegmentStream (1, 2) 1000) := by
  intro h
  have hend := h.watched denyingServer ()
  have hview : (Prog.watched (deliveryMonitor 1) denyingServer (deliveryMonitor 1).start
      (deniedClient.compactBlockSegmentStream (1, 2) 1000) ()).1 =
      ⟨[⟨[deliveredBlock], [1], 1, "https://lightd.example"⟩],
        some (.status .permissionDenied "denied")⟩ := by
    decide
  rw [hview] at hend
  refine nomatch hend.mpr ⟨⟨rfl, List.IsChain.singleton _, ?_⟩, rfl⟩
  intro block hblock
  obtain rfl := List.mem_singleton.mp hblock
  exact ⟨rfl, rfl⟩

end StashiWallet
