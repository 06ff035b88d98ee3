import StashiWallet.KeyImports
import StashiWallet.NoteStore

/-!
# Checking witnesses at an anchor

Two functions of the repository decide from the notes table what can be spent at an anchor.
`get_unspent_selectable_notes_at_anchor_filtered` returns the notes a transaction can spend,
with their witnesses. `check_witnesses` reports the ranges of blocks to scan again because a
note cannot be spent yet; no range means the wallet is validated at the anchor.

The first reads the table through `get_unspent_notes`, which leaves out rows with an invalid
value; the second through `get_unspent_note_witness_metas`, which does not. It calls the first
to see whether witnesses can be built, and compares the number of notes it returns with the
number of notes it expects.

What the note libraries and the shard trees compute is a parameter: whether bytes are an
address, a commitment trapdoor or a note, and the witness of a position at a checkpoint.
-/

namespace StashiWallet

/-! ## Two views of the notes -/

/-- What the loops over the notes of an account accumulate. -/
structure UnspentScan where
  spentOutputs : List OutputKey
  byOutput : AList (fun _ : OutputKey => NoteRow)

/-- The loop body that `get_unspent_notes` and `get_unspent_note_witness_metas` share, with the
check a row has to pass. Any spent row of an output wins; of several unspent ones the newest is
kept. -/
def UnspentScan.visit (accountId : Int) (passes : NoteRow → Bool) (scan : UnspentScan)
    (row : NoteRow) : UnspentScan :=
  if row.accountId ≠ accountId then scan
  else if row.spent then
    ⟨row.outputKey :: scan.spentOutputs, scan.byOutput.erase row.outputKey⟩
  else if scan.spentOutputs.contains row.outputKey then scan
  else if !passes row then scan
  else match scan.byOutput.lookup row.outputKey with
    | some existing =>
      if existing.id < row.id then
        { scan with byOutput := scan.byOutput.insert row.outputKey row }
      else scan
    | none => { scan with byOutput := scan.byOutput.insert row.outputKey row }

/-- The loop over a table. -/
def Notes.unspentScan (accountId : Int) (passes : NoteRow → Bool) (notes : Notes) : UnspentScan :=
  notes.rows.foldl (UnspentScan.visit accountId passes) ⟨[], ∅⟩

/-- The rows that are left, in some order. -/
def Notes.latestUnspent (accountId : Int) (passes : NoteRow → Bool) (notes : Notes) :
    List NoteRow :=
  (notes.unspentScan accountId passes).byOutput.entries.map Sigma.snd

def Notes.getUnspentNotes (accountId : Int) (notes : Notes) : List NoteRow :=
  notes.latestUnspent accountId (fun row => noteValueIsValid row.value)

structure WitnessCheckNoteMeta where
  noteType : NoteType
  height : Int
  txid : Bytes
  outputIndex : Int
  position : Option Int
  hasNoteMaterial : Bool
deriving DecidableEq, Repr

/-- What `check_witnesses` keeps of a row. -/
def NoteRow.witnessMeta (row : NoteRow) : WitnessCheckNoteMeta where
  noteType := row.noteType
  height := row.height
  txid := row.txid
  outputIndex := row.outputIndex
  position := row.position
  hasNoteMaterial := row.note.any (fun value => !value.isEmpty)

/-- `get_unspent_note_witness_metas`. The value of a row is not looked at. -/
def Notes.getUnspentNoteWitnessMetas (accountId : Int) (notes : Notes) :
    List WitnessCheckNoteMeta :=
  (notes.latestUnspent accountId (fun _ => true)).map NoteRow.witnessMeta

/-! ## The tables -/

/-- A row of `sapling_tree_shards` or `orchard_tree_shards`. -/
structure TreeShardRow where
  shardIndex : Nat
  subtreeEndHeight : Option Int
deriving DecidableEq, Repr

/-- The tables the two functions read. -/
structure WitnessTables where
  db : WalletDb
  accountKeys : AccountKeys
  saplingTreeShards : List TreeShardRow
  orchardTreeShards : List TreeShardRow

namespace WitnessTables

variable (tables : WitnessTables)

/-- `sapling_note_shards` or `orchard_note_shards`. -/
def noteShards : NoteType → List NoteShardRow
  | .sapling => tables.db.saplingNoteShards
  | .ironwood => tables.db.orchardNoteShards

/-- `sapling_tree_shards` or `orchard_tree_shards`. -/
def treeShards : NoteType → List TreeShardRow
  | .sapling => tables.saplingTreeShards
  | .ironwood => tables.orchardTreeShards

/-- `get_wallet_birthday_height`. The minimum is positive, so it is a `u64`. -/
def getWalletBirthdayHeight (accountId : Int) : Option Nat :=
  (((tables.accountKeys.ofAccount accountId).map (fun key =>
    if 0 < key.birthdayHeight then key.birthdayHeight else 1)).min?).map Int.toNat

/-- `IFNULL(MIN(birthday_height), 0)` over all keys, in the views. -/
def viewBirthday : Int := ((tables.accountKeys.rows.map (·.birthdayHeight)).min?).getD 0

/-- `v_sapling_shard_unscanned_ranges` and its Orchard twin: the shard's index, and a range of
the queue that is to be scanned and meets the shard's blocks. -/
def shardUnscannedRanges (noteType : NoteType) : List (Nat × Nat × Nat) :=
  (tables.noteShards noteType).flatMap (fun shard =>
    (tables.db.scanQueue.rows.filter (fun range =>
      decide (shard.subtreeStartHeight < range.rangeEnd) &&
      shard.subtreeEndHeight.all (fun last => decide ((range.rangeStart : Int) ≤ last)) &&
      range.active && decide (tables.viewBirthday < range.rangeEnd))).map
      (fun range => (shard.shardIndex, range.rangeStart, range.rangeEnd)))

/-- `load_blocked_shard_ranges`: the ranges of a shard; none for a shard without an entry. -/
def loadBlockedShardRanges (noteType : NoteType) (anchorHeight walletBirthday : Nat)
    (shardIndices : List Nat) (shardIndex : Nat) : List (Nat × Nat) :=
  if shardIndices.contains shardIndex then
    (((tables.shardUnscannedRanges noteType).filter (fun range => range.1 == shardIndex &&
      decide (range.2.1 ≤ anchorHeight) && decide (walletBirthday < range.2.2))).map
      Prod.snd).insertionSort (fun a b => a.1 ≤ b.1)
  else []

end WitnessTables

def shardIndexFromPosition (position : Int) : Option Nat :=
  if position < 0 then none else some (position.toNat >>> noteShardIndexBits)

/-! ## Selectable notes -/

/-- A Sapling note, by what it is built from. -/
structure SaplingNote where
  address : Bytes
  value : Nat
  leadbyte : UInt8
  rseed : Bytes
deriving DecidableEq, Repr

/-- An Ironwood note, by what it is built from. -/
structure OrchardNote where
  address : Bytes
  value : Nat
  rho : Bytes
  rseed : Bytes
deriving DecidableEq, Repr

/-- What the note libraries accept. -/
structure NoteParts where
  saplingAddress : Bytes → Bool
  saplingRcm : Bytes → Bool
  orchardAddress : Bytes → Bool
  orchardRho : Bytes → Bool
  orchardRseed : Bytes → Bytes → Bool
  orchardNote : OrchardNote → Bool

/-- `SelectableNote`, with the fields that decide whether it can be spent. -/
structure SelectableNote (Path : Type) where
  noteType : NoteType
  value : Nat
  commitment : Bytes
  nullifier : Option Bytes
  height : Nat
  txid : Bytes
  outputIndex : Nat
  keyId : Option Int
  merklePath : Option Path
  saplingPosition : Option Nat
  diversifier : Option Bytes
  note : Option SaplingNote
  ironwoodAnchor : Option Bytes
  ironwoodPosition : Option Nat
  ironwoodNote : Option OrchardNote
  ironwoodMerklePath : Option Path
deriving DecidableEq, Repr

/-- `bytes[from..to]`. -/
def slice (bytes : Bytes) (start stop : Nat) : Bytes := (bytes.drop start).take (stop - start)

def parseSaplingNoteBytes (bytes : Bytes) : Option (Bytes × UInt8 × Bytes) :=
  if 77 ≤ bytes.length ∧ bytes.head? = some 1 then
    some (slice bytes 1 44, bytes.getD 44 0, slice bytes 45 77)
  else if bytes.length = 76 then
    some (slice bytes 0 43, bytes.getD 43 0, slice bytes 44 76)
  else none

def parseOrchardNoteBytes (bytes : Bytes) : Option (Bytes × Bytes × Bytes) :=
  if 108 ≤ bytes.length ∧ bytes.head? = some 1 then
    some (slice bytes 1 44, slice bytes 44 76, slice bytes 76 108)
  else if bytes.length = 107 then
    some (slice bytes 0 43, slice bytes 43 75, slice bytes 75 107)
  else none

/-- A cast `i64 as u32`. -/
def asU32 (value : Int) : Nat := (value % 4294967296).toNat

def u32TryFrom (value : Int) : Option Nat :=
  if 0 ≤ value ∧ value ≤ u32Max then some value.toNat else none

section Selectable

variable {Path : Type} (parts : NoteParts)

/-- The loop body of `get_unspent_selectable_notes_filtered` for a Sapling row. -/
def NoteRow.saplingSelectable (row : NoteRow) : Option (SelectableNote Path) := do
  let (address, leadbyte, rseed) ← row.note.bind parseSaplingNoteBytes
  guard (parts.saplingAddress address)
  guard (leadbyte = 2 ∨ parts.saplingRcm rseed = true)
  guard (0 ≤ row.value)
  return {
    noteType := .sapling
    value := row.value.toNat
    commitment := row.commitment
    nullifier := if row.nullifier.isEmpty then none else some row.nullifier
    height := asU64 row.height
    txid := row.txid
    outputIndex := asU32 row.outputIndex
    keyId := row.keyId
    merklePath := none
    saplingPosition := (row.position.filter (fun position => 0 ≤ position)).map Int.toNat
    diversifier := some (slice address 0 11)
    note := some ⟨address, row.value.toNat, leadbyte, rseed⟩
    ironwoodAnchor := none
    ironwoodPosition := none
    ironwoodNote := none
    ironwoodMerklePath := none }

/-- The loop body of `get_unspent_selectable_notes_filtered` for an Ironwood row. -/
def NoteRow.ironwoodSelectable (row : NoteRow) : Option (SelectableNote Path) := do
  let (address, rho, rseed) ← row.note.bind parseOrchardNoteBytes
  guard (parts.orchardAddress address)
  guard (parts.orchardRho rho)
  guard (parts.orchardRseed rseed rho)
  guard (0 ≤ row.value)
  let note : OrchardNote := ⟨address, row.value.toNat, rho, rseed⟩
  guard (parts.orchardNote note)
  let position ← row.position
  return {
    noteType := .ironwood
    value := row.value.toNat
    commitment := row.commitment
    nullifier := if row.nullifier.isEmpty then none else some row.nullifier
    height := asU64 row.height
    txid := row.txid
    outputIndex := asU32 row.outputIndex
    keyId := row.keyId
    merklePath := none
    saplingPosition := none
    diversifier := none
    note := none
    ironwoodAnchor := none
    -- a negative position wraps around here, and does not fit an `i64` again later
    ironwoodPosition := some (asU64 position)
    ironwoodNote := some note
    ironwoodMerklePath := none }

/-- The loop body of `get_unspent_selectable_notes_filtered`. -/
def NoteRow.selectable (row : NoteRow) : Option (SelectableNote Path) :=
  match row.noteType with
  | .sapling => row.saplingSelectable parts
  | .ironwood => row.ironwoodSelectable parts

/-- The filters of a selection: with any, a row has to match one of them. -/
def NoteRow.matchesFilters (keyIds addressIds : Option (List Int)) (row : NoteRow) : Bool :=
  (keyIds.isNone && addressIds.isNone) ||
    keyIds.any (fun ids => row.keyId.any ids.contains) ||
    addressIds.any (fun ids => row.addressId.any ids.contains)

def Notes.getUnspentSelectableNotesFiltered (accountId : Int)
    (keyIds addressIds : Option (List Int)) (notes : Notes) : List (SelectableNote Path) :=
  ((notes.getUnspentNotes accountId).filter (NoteRow.matchesFilters keyIds addressIds)).filterMap
    (NoteRow.selectable parts)

end Selectable

/-! ## Witnesses -/

/-- What the shard trees answer, by position and checkpoint depth, and the roots of their
witnesses. -/
structure ShardTrees (Path : Type) where
  saplingWitness : Nat → Nat → Except StorageError (Option Path)
  saplingRoot : Nat → Except StorageError (Option Bytes)
  saplingCommitment : Bytes → Bool
  saplingPathRoot : Path → Bytes → Bytes
  orchardWitness : Nat → Nat → Except StorageError (Option Path)
  orchardAnchor : Nat → Except StorageError (Option Bytes)
  orchardCommitment : OrchardNote → Bytes
  orchardPathRoot : Path → Bytes → Bytes

def checkpointDepthAtOrBelow (tree : CommitmentTree) (anchorHeight : Nat) :
    Except StorageError (Option Nat) :=
  if anchorHeight = 0 then return none
  else if u32Max < anchorHeight then
    throw (.storage s!"anchor_height {anchorHeight} exceeds u32::MAX")
  else
    let ids := tree.checkpoints.map TreeCheckpoint.checkpointId
    match (ids.filter (fun id => id ≤ anchorHeight)).max? with
    | none => return none
    | some checkpointId => return some (ids.countP (fun id => checkpointId < id))

namespace SelectableNote

variable {Path : Type}

/-- Whether the note carries what a spend needs. -/
def hasWitness (note : SelectableNote Path) : Bool :=
  match note.noteType with
  | .sapling => note.merklePath.isSome
  | .ironwood => note.ironwoodMerklePath.isSome && note.ironwoodAnchor.isSome

def withoutWitness (note : SelectableNote Path) : SelectableNote Path :=
  { note with merklePath := none, ironwoodMerklePath := none, ironwoodAnchor := none }

/-- The body of the loop of `construct_anchor_witnesses_from_db_state` for a Sapling note. -/
def hydrateSapling (trees : ShardTrees Path) (depth : Option Nat) (root : Option Bytes)
    (note : SelectableNote Path) : Except StorageError (Option (SelectableNote Path)) := do
  if note.diversifier.isNone || note.note.isNone then return none
  else if note.merklePath.isSome then return some note
  else match note.saplingPosition, depth with
    | some position, some depth =>
      match ← trees.saplingWitness position depth with
      | none => return none
      | some witness =>
        -- the witness is checked against the root of the checkpoint
        match root with
        | none => return none
        | some root =>
          if note.commitment.length = 32 ∧ trees.saplingCommitment note.commitment = true ∧
              trees.saplingPathRoot witness note.commitment = root then
            return some { note with merklePath := some witness }
          else return none
    | _, _ => return none

/-- The body of the loop of `construct_anchor_witnesses_from_db_state` for an Ironwood note. -/
def hydrateIronwood (trees : ShardTrees Path) (depth : Option Nat) (anchor : Option Bytes)
    (note : SelectableNote Path) : Except StorageError (Option (SelectableNote Path)) := do
  match note.ironwoodPosition, note.ironwoodNote with
  | some position, some orchardNote =>
    if note.ironwoodMerklePath.isSome && note.ironwoodAnchor.isSome then return some note
    else match depth, anchor with
      | some depth, some anchor =>
        match ← trees.orchardWitness position depth with
        | none => return none
        | some merklePath =>
          if trees.orchardPathRoot merklePath (trees.orchardCommitment orchardNote) = anchor then
            return some { note with
              ironwoodMerklePath := some merklePath
              ironwoodAnchor := some anchor }
          else return none
      | _, _ => return none
  | _, _ => return none

end SelectableNote

section Anchor

variable {Path : Type} (parts : NoteParts) (trees : ShardTrees Path)

/-- The roots of the two trees at the checkpoints of an anchor, with the depths. -/
structure AnchorRoots where
  saplingDepth : Option Nat
  orchardDepth : Option Nat
  saplingRoot : Option Bytes
  orchardAnchor : Option Bytes

/-- The first part of `construct_anchor_witnesses_from_db_state`. -/
def WalletDb.anchorRoots (anchorHeight : Nat) (db : WalletDb) :
    Except StorageError AnchorRoots := do
  let saplingDepth ← checkpointDepthAtOrBelow db.saplingTree anchorHeight
  let orchardDepth ← checkpointDepthAtOrBelow db.orchardTree anchorHeight
  let orchardAnchor ← match orchardDepth with
    | some depth => trees.orchardAnchor depth
    | none => pure none
  let saplingRoot ← match saplingDepth with
    | some depth => trees.saplingRoot depth
    | none => pure none
  return ⟨saplingDepth, orchardDepth, saplingRoot, orchardAnchor⟩

/-- The loop body of `construct_anchor_witnesses_from_db_state`. -/
def AnchorRoots.hydrate (roots : AnchorRoots) (note : SelectableNote Path) :
    Except StorageError (Option (SelectableNote Path)) :=
  match note.noteType with
  | .sapling => note.hydrateSapling trees roots.saplingDepth roots.saplingRoot
  | .ironwood => note.hydrateIronwood trees roots.orchardDepth roots.orchardAnchor

/-- `construct_anchor_witnesses_from_db_state`: the notes a witness was found for. -/
def WalletDb.constructAnchorWitnesses (anchorHeight : Nat) (notes : List (SelectableNote Path))
    (db : WalletDb) : Except StorageError (List (SelectableNote Path)) := do
  if notes.isEmpty || anchorHeight == 0 then return []
  let roots ← db.anchorRoots trees anchorHeight
  return (← notes.mapM (roots.hydrate trees)).filterMap id

/-- The position of a note in the tree of its pool. -/
def SelectableNote.position (note : SelectableNote Path) : Option Nat :=
  match note.noteType with
  | .sapling => note.saplingPosition
  | .ironwood => note.ironwoodPosition

/-- The position of a note, if it is an `i64`. -/
def SelectableNote.positionI64 (note : SelectableNote Path) : Option Nat :=
  note.position.filter (fun position => position ≤ i64Max)

def SelectableNote.shardIndex (note : SelectableNote Path) : Option Nat :=
  note.positionI64.bind (fun position => shardIndexFromPosition position)

/-- The shards of the notes of a pool. -/
def selectedShards (noteType : NoteType) (notes : List (SelectableNote Path)) : List Nat :=
  (notes.filter (fun note => note.noteType == noteType)).filterMap SelectableNote.shardIndex

/-- A value on its way into an SQL parameter. -/
def anchorToI64 (name : String) (value : Nat) : Except StorageError Nat :=
  toI64Or s!"{name} {value} exceeds i64::MAX" value

def WitnessTables.getUnspentSelectableNotesAtAnchorFiltered (accountId : Int) (anchorHeight : Nat)
    (keyIds addressIds : Option (List Int)) (tables : WitnessTables) :
    Except StorageError (List (SelectableNote Path)) := do
  if anchorHeight = 0 then return []
  let walletBirthday := (tables.getWalletBirthdayHeight accountId).getD 0
  let anchorHeight ← anchorToI64 "anchor_height" anchorHeight
  let walletBirthday ← anchorToI64 "wallet_birthday" walletBirthday
  let candidates : List (SelectableNote Path) :=
    tables.db.notes.getUnspentSelectableNotesFiltered parts accountId keyIds addressIds
  let notes := (candidates.filter (fun note =>
    note.height ≤ anchorHeight && walletBirthday ≤ note.height)).filter
      (fun note => note.position.isSome)
  let blocked := fun noteType => tables.loadBlockedShardRanges noteType anchorHeight walletBirthday
    (selectedShards noteType notes)
  let filtered := notes.filter (fun note =>
    note.shardIndex.any (fun shardIndex => (blocked note.noteType shardIndex).isEmpty))
  tables.db.constructAnchorWitnesses trees anchorHeight filtered

end Anchor

/-! ## The check -/

structure WitnessCheckResult where
  consideredNotes : Nat
  saplingMissing : Nat
  orchardMissing : Nat
  repairRanges : List (Nat × Nat)
deriving DecidableEq, Repr

structure AnchorCandidate where
  txid : Bytes
  outputIndex : Nat
  notePool : NoteType
  height : Nat
  position : Int
deriving DecidableEq, Repr

namespace WitnessCheckNoteMeta

/-- The height of a note that is mined and lies within the window. -/
def heightWithin (birthday anchorHeight : Nat) (note : WitnessCheckNoteMeta) : Option Nat :=
  if 0 < note.height ∧ (birthday : Int) ≤ note.height ∧ note.height ≤ (anchorHeight : Int) then
    some note.height.toNat
  else none

/-- The position, if it is one. -/
def notePosition (note : WitnessCheckNoteMeta) : Option Int :=
  note.position.filter (fun position => 0 ≤ position)

def shardIndex (note : WitnessCheckNoteMeta) : Option Nat :=
  note.notePosition.bind shardIndexFromPosition

/-- The candidate a note with material and position is, if its output index is a `u32`. -/
def anchorCandidate (height : Nat) (note : WitnessCheckNoteMeta) : Option AnchorCandidate := do
  guard note.hasNoteMaterial
  let position ← note.notePosition
  let outputIndex ← u32TryFrom note.outputIndex
  return ⟨note.txid, outputIndex, note.noteType, height, position⟩

/-- The ranges that keep the shard of a note from being complete. -/
def blockedRanges (blocked : NoteType → Nat → List (Nat × Nat)) (note : WitnessCheckNoteMeta) :
    List (Nat × Nat) :=
  note.shardIndex.elim [] (blocked note.noteType)

end WitnessCheckNoteMeta

/-- What the loop of `check_witnesses` accumulates. -/
structure WitnessScan where
  consideredNotes : Nat
  saplingMissing : Nat
  orchardMissing : Nat
  anchorCandidates : List AnchorCandidate
  pendingRanges : List (Nat × Nat)

/-- One more note of a pool is missing. -/
def WitnessScan.miss (noteType : NoteType) (ranges : List (Nat × Nat)) (scan : WitnessScan) :
    WitnessScan :=
  match noteType with
  | .sapling => { scan with
      saplingMissing := saturatingAdd scan.saplingMissing 1
      pendingRanges := scan.pendingRanges ++ ranges }
  | .ironwood => { scan with
      orchardMissing := saturatingAdd scan.orchardMissing 1
      pendingRanges := scan.pendingRanges ++ ranges }

namespace WitnessTables

variable (tables : WitnessTables)

/-- The range that is scanned again for a note without material or position: the blocks of its
shard, or from its height on. -/
def materialRange (birthday anchorHeight height : Nat) (note : WitnessCheckNoteMeta) : Nat × Nat :=
  let shard := note.shardIndex.bind (fun shardIndex =>
    (tables.noteShards note.noteType).find? (fun shard => shard.shardIndex == shardIndex))
  match shard.filter (fun shard => 0 ≤ shard.subtreeStartHeight) with
  | some shard =>
    let rangeStart := max (max shard.subtreeStartHeight.toNat birthday) 1
    let last := ((shard.subtreeEndHeight.filter (fun last => 0 ≤ last)).map Int.toNat).getD
      anchorHeight
    (rangeStart, max (saturatingAdd (min last anchorHeight) 1) (saturatingAdd rangeStart 1))
  | none =>
    let rangeStart := max (max height birthday) 1
    (rangeStart, max (saturatingAdd anchorHeight 1) (saturatingAdd rangeStart 1))

/-- The loop body of `check_witnesses`. -/
def visitMeta (birthday anchorHeight : Nat) (blocked : NoteType → Nat → List (Nat × Nat))
    (scan : WitnessScan) (note : WitnessCheckNoteMeta) : WitnessScan :=
  match note.heightWithin birthday anchorHeight with
  | none => scan
  | some height =>
    let scan := { scan with
      consideredNotes := saturatingAdd scan.consideredNotes 1
      anchorCandidates := scan.anchorCandidates ++ (note.anchorCandidate height).toList }
    match note.blockedRanges blocked with
    | range :: ranges => scan.miss note.noteType ((range :: ranges).map (fun range =>
        let rangeStart := max (max range.1 birthday) 1
        (rangeStart, max (min range.2 (saturatingAdd anchorHeight 1))
          (saturatingAdd rangeStart 1))))
    | [] =>
      if !note.hasNoteMaterial || note.notePosition.isNone then
        scan.miss note.noteType [tables.materialRange birthday anchorHeight height note]
      else scan

def treeShardHeightRangeForPosition (noteType : NoteType) (position : Int) : Option (Nat × Nat) := do
  let shardIndex ← shardIndexFromPosition position
  let shard ← (tables.treeShards noteType).find? (fun shard => shard.shardIndex == shardIndex)
  let last ← shard.subtreeEndHeight
  guard (0 ≤ last)
  let previous := ((tables.treeShards noteType).find? (fun previous =>
    previous.shardIndex + 1 == shardIndex)).bind (·.subtreeEndHeight)
  let rangeStart := ((previous.filter (fun height => 0 ≤ height)).map
    (fun height => saturatingAdd height.toNat 1)).getD 1
  return (rangeStart, saturatingAdd last.toNat 1)

/-- The start of the shard of a position. -/
def shardStart (position : Int) : Option Nat :=
  (shardIndexFromPosition position).map (fun shardIndex => shardIndex <<< noteShardIndexBits)

/-- `witness_repair_replay_start`: behind the newest checkpoint of both trees that lies before
the affected shards. -/
def witnessRepairReplayStart (requestedStart walletBirthday : Nat)
    (saplingPosition orchardPosition : Option Int) : Except StorageError Nat := do
  let latest := max (max requestedStart walletBirthday) 1
  if saplingPosition.isNone && orchardPosition.isNone then return latest
  let before := fun (start : Option Nat) (position : Option Nat) =>
    start.all (fun start => position.all (fun position => decide (position < start)))
  let ceiling ← toI64Or s!"witness repair start {requestedStart} exceeds i64::MAX"
    (requestedStart - 1)
  let common := tables.db.saplingTree.checkpoints.filter (fun s => s.checkpointId ≤ ceiling &&
    before (saplingPosition.bind shardStart) s.position &&
    tables.db.orchardTree.checkpoints.any (fun o => o.checkpointId == s.checkpointId &&
      before (orchardPosition.bind shardStart) o.position))
  let replayStart := ((common.map TreeCheckpoint.checkpointId).max?.map
    (fun height => saturatingAdd height 1)).getD walletBirthday
  return min (max (max replayStart walletBirthday) 1) latest

/-- The least of the given positions. -/
def earliestPosition (noteType : NoteType) (missing : List AnchorCandidate) : Option Int :=
  ((missing.filter (fun candidate => candidate.notePool == noteType)).map (·.position)).min?

/-- The range for the candidates that are not ready. -/
def anchorGapRange (birthday anchorHeight : Nat) (missing : List AnchorCandidate) :
    Except StorageError (Nat × Nat) := do
  let shardRanges := missing.filterMap (fun candidate =>
    tables.treeShardHeightRangeForPosition candidate.notePool candidate.position)
  let earliestMissingHeight := (missing.map (·.height)).foldl min anchorHeight
  let requestedStart :=
    max (max (((shardRanges.map Prod.fst).min?).getD earliestMissingHeight) birthday) 1
  let rangeStart ← tables.witnessRepairReplayStart requestedStart birthday
    (earliestPosition .sapling missing) (earliestPosition .ironwood missing)
  let rangeEnd := ((shardRanges.map Prod.snd).max?).getD (saturatingAdd anchorHeight 1)
  return (rangeStart,
    max (min rangeEnd (saturatingAdd anchorHeight 1)) (saturatingAdd rangeStart 1))

end WitnessTables

/-- The candidates whose output is not among the ready notes. -/
def missingCandidates {Path : Type} (candidates : List AnchorCandidate)
    (ready : List (SelectableNote Path)) : List AnchorCandidate :=
  let readyKeys := ready.map (fun note => (note.txid, note.outputIndex, note.noteType))
  candidates.filter (fun candidate =>
    !readyKeys.contains (candidate.txid, candidate.outputIndex, candidate.notePool))

/-- The loop that merges the sorted ranges. -/
def mergeRanges (merged : List (Nat × Nat)) (range : Nat × Nat) : List (Nat × Nat) :=
  match merged.getLast? with
  | some last =>
    if range.1 ≤ last.2 then merged.dropLast ++ [(last.1, max last.2 range.2)]
    else merged ++ [range]
  | none => [range]

/-- The order the ranges are merged in. -/
def rangeBefore (a b : Nat × Nat) : Prop := a.1 < b.1 ∨ (a.1 = b.1 ∧ a.2 ≤ b.2)

instance : DecidableRel rangeBefore := fun _ _ => inferInstanceAs (Decidable (_ ∨ _))

def WitnessScan.result (scan : WitnessScan) : WitnessCheckResult where
  consideredNotes := scan.consideredNotes
  saplingMissing := scan.saplingMissing
  orchardMissing := scan.orchardMissing
  repairRanges := (scan.pendingRanges.insertionSort rangeBefore).foldl mergeRanges []

section Check

variable {Path : Type} (parts : NoteParts) (trees : ShardTrees Path)

/-- The second part of `check_witnesses`: whether witnesses can be built. -/
def WitnessTables.checkAnchor (accountId : Int) (anchorHeight birthday : Nat) (scan : WitnessScan)
    (tables : WitnessTables) : Except StorageError WitnessScan := do
  if scan.anchorCandidates.isEmpty then return scan
  let anchorReady ← tables.getUnspentSelectableNotesAtAnchorFiltered parts trees accountId
    anchorHeight none none
  -- as many notes as candidates are taken for all of them
  if anchorReady.length < scan.anchorCandidates.length then
    match missingCandidates scan.anchorCandidates anchorReady with
    | [] => return scan
    | first :: rest =>
      let missing := first :: rest
      let range ← tables.anchorGapRange birthday anchorHeight missing
      return { scan with
        saplingMissing := saturatingAdd scan.saplingMissing
          (missing.countP (fun candidate => candidate.notePool == .sapling))
        orchardMissing := saturatingAdd scan.orchardMissing
          (missing.countP (fun candidate => candidate.notePool == .ironwood))
        pendingRanges := scan.pendingRanges ++ [range] }
  else return scan

def WitnessTables.checkWitnesses (accountId : Int) (anchorHeight walletBirthday : Nat)
    (tables : WitnessTables) : Except StorageError WitnessCheckResult := do
  let metas := tables.db.notes.getUnspentNoteWitnessMetas accountId
  if anchorHeight = 0 ∨ metas.isEmpty = true then return ⟨0, 0, 0, []⟩
  let birthday := max walletBirthday 1
  let anchorHeight ← anchorToI64 "anchor_height" anchorHeight
  let birthday ← anchorToI64 "wallet_birthday" birthday
  let shardIndices := fun noteType => (metas.filter (fun note => note.noteType == noteType &&
    (note.heightWithin birthday anchorHeight).isSome)).filterMap WitnessCheckNoteMeta.shardIndex
  let blocked := fun noteType => tables.loadBlockedShardRanges noteType anchorHeight birthday
    (shardIndices noteType)
  let scan := metas.foldl (tables.visitMeta birthday anchorHeight blocked) ⟨0, 0, 0, [], []⟩
  let scan ← tables.checkAnchor parts trees accountId anchorHeight birthday scan
  return scan.result

end Check

/-! ## What the answers are about -/

/-- The height of the note lies in `[birthday, anchorHeight]`. -/
def NoteRecord.inWindow (birthday anchorHeight : Nat) (note : NoteRecord) : Bool :=
  decide ((birthday : Int) ≤ note.height) && decide (note.height ≤ (anchorHeight : Int))

/-- The position of the note is an `i64`. -/
def NoteRecord.PositionFits (note : NoteRecord) : Prop :=
  ∀ position, note.position = some position →
    -9223372036854775808 ≤ position ∧ position ≤ 9223372036854775807

namespace WitnessTables

variable {Path : Type} (parts : NoteParts) (trees : ShardTrees Path)

/-- No range that is to be scanned up to the anchor meets the blocks of the shard. -/
def shardScanned (noteType : NoteType) (anchorHeight walletBirthday shardIndex : Nat)
    (tables : WitnessTables) : Bool :=
  (tables.loadBlockedShardRanges noteType anchorHeight walletBirthday [shardIndex]
    shardIndex).isEmpty

/-- The row has note material, and a position in a shard that is scanned. -/
def complete (anchorHeight walletBirthday : Nat) (tables : WitnessTables) (row : NoteRow) : Bool :=
  row.witnessMeta.hasNoteMaterial && row.witnessMeta.shardIndex.any
    (fun shardIndex => tables.shardScanned row.noteType anchorHeight walletBirthday shardIndex)

/-- The note with its witness, if there is one. -/
def hydrated (anchorHeight : Nat) (tables : WitnessTables) (note : SelectableNote Path) :
    Option (SelectableNote Path) :=
  match tables.db.anchorRoots trees anchorHeight with
  | .ok roots => (roots.hydrate trees note).toOption.join
  | .error _ => none

/-- What a selection at the anchor makes of a row. -/
def readyNote (accountId : Int) (anchorHeight : Nat) (tables : WitnessTables) (row : NoteRow) :
    Option (SelectableNote Path) :=
  let walletBirthday := (tables.getWalletBirthdayHeight accountId).getD 0
  (row.selectable parts).bind (fun note =>
    if (decide (note.height ≤ anchorHeight) && decide (walletBirthday ≤ note.height)) &&
        note.shardIndex.any (fun shardIndex =>
          tables.shardScanned note.noteType anchorHeight walletBirthday shardIndex) then
      tables.hydrated trees anchorHeight note
    else none)

/-- The birthday `check_witnesses` is called with. -/
def checkBirthday (accountId : Int) (tables : WitnessTables) : Nat :=
  (tables.getWalletBirthdayHeight accountId).getD 1

variable (accountId : Int) (anchorHeight : Nat) (tables : WitnessTables)

/-- The rows of the view of `check_witnesses` that lie in the window. -/
def checkedRows : List NoteRow :=
  (tables.db.notes.latestUnspent accountId (fun _ => true)).filter
    (fun row => row.inWindow (tables.checkBirthday accountId) anchorHeight)

/-- The notes of `get_unspent_notes` that lie in the window. -/
def windowNotes : List NoteRow :=
  (tables.db.notes.getUnspentNotes accountId).filter
    (fun row => row.inWindow (tables.checkBirthday accountId) anchorHeight)

/-- The checked rows that `get_unspent_notes` ignores. -/
def ignoredRows : List NoteRow :=
  (tables.checkedRows accountId anchorHeight).filter (fun row => !noteValueIsValid row.value)

/-- The notes of the window that cannot be spent at the anchor. -/
def unspendableNotes : List NoteRow :=
  (tables.windowNotes accountId anchorHeight).filter
    (fun row => (tables.readyNote parts trees accountId anchorHeight row).isNone)

/-- What makes more notes ready than candidates are counted: checked rows whose output index is
no `u32`, notes that an ignored row of their output hides from the check, and notes that can be
spent though they lie outside the window. -/
def uncountedRows : List NoteRow :=
  (tables.checkedRows accountId anchorHeight).filter
      (fun row => (u32TryFrom row.outputIndex).isNone) ++
    (tables.windowNotes accountId anchorHeight).filter
      (fun row => row ∉ tables.checkedRows accountId anchorHeight) ++
    (tables.db.notes.getUnspentNotes accountId).filter (fun row =>
      !row.inWindow (tables.checkBirthday accountId) anchorHeight &&
        (tables.readyNote parts trees accountId anchorHeight row).isSome)

/-- Where every note of the window can be spent, the ignored rows are complete and no more than
what is not counted; where some notes cannot, a checked row is not complete, or the ignored rows
and these notes are more than what is not counted. -/
def ChecksReadiness : Prop :=
  if tables.unspendableNotes parts trees accountId anchorHeight = [] then
    (∀ row ∈ tables.ignoredRows accountId anchorHeight,
      tables.complete anchorHeight (tables.checkBirthday accountId) row = true) ∧
    (tables.ignoredRows accountId anchorHeight).length ≤
      (tables.uncountedRows parts trees accountId anchorHeight).length
  else
    (∃ row ∈ tables.checkedRows accountId anchorHeight,
      tables.complete anchorHeight (tables.checkBirthday accountId) row = false) ∨
    (tables.uncountedRows parts trees accountId anchorHeight).length <
      (tables.ignoredRows accountId anchorHeight).length +
        (tables.unspendableNotes parts trees accountId anchorHeight).length

/-- Every note of the window is returned by the selection at the anchor, with a witness. -/
def AllReady (ready : List (SelectableNote Path)) : Prop :=
  ∀ row ∈ tables.windowNotes accountId anchorHeight, ∃ note ∈ ready,
    row.selectable parts = some note.withoutWitness ∧ note.hasWitness = true

instance : Decidable (tables.ChecksReadiness parts trees accountId anchorHeight) :=
  inferInstanceAs (Decidable
    (if tables.unspendableNotes parts trees accountId anchorHeight = [] then _ else _))

instance [DecidableEq Path] (ready : List (SelectableNote Path)) :
    Decidable (tables.AllReady parts accountId anchorHeight ready) :=
  inferInstanceAs (Decidable (∀ row ∈ tables.windowNotes accountId anchorHeight, ∃ note ∈ ready, _))

end WitnessTables

end StashiWallet
