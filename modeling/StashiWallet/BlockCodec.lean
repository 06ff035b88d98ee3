import StashiWallet.BlockCache
import StashiWallet.ByteOrder

/-!
# The formats of a cached block

A row holds its block in one of three formats, which its first bytes tell apart: a protobuf
record under a checksum, the record of the first version without one, and JSON. Only the first is
still written. Prost, CRC-32 and the JSON reader are parameters.
-/

namespace StashiWallet

/-- `PWCB\x01`. -/
def CACHE_RECORD_MAGIC_V1 : Bytes := [80, 87, 67, 66, 1]

def CACHE_RECORD_CHECKSUM_LEN : Nat := 4

structure CachedSaplingSpend where
  nf : Bytes
deriving DecidableEq, Repr

structure CachedSaplingOutput where
  cmu : Bytes
  ephemeralKey : Bytes
  ciphertext : Bytes
deriving DecidableEq, Repr

structure CachedIronwoodAction where
  nullifier : Bytes
  cmx : Bytes
  ephemeralKey : Bytes
  encCiphertext : Bytes
  outCiphertext : Bytes
deriving DecidableEq, Repr

structure CachedCompactTx where
  index : Option Nat
  hash : Bytes
  fee : Option Nat
  spends : List CachedSaplingSpend
  outputs : List CachedSaplingOutput
  actions : List CachedIronwoodAction
deriving DecidableEq, Repr

/-- The message that a record holds. -/
structure CachedCompactBlock where
  protoVersion : Nat
  height : Nat
  hash : Bytes
  prevHash : Bytes
  time : Nat
  header : Bytes
  transactions : List CachedCompactTx
deriving DecidableEq, Repr

def CachedSaplingSpend.ofSpend (spend : CompactSaplingSpend) : CachedSaplingSpend := ⟨spend.nf⟩

def CachedSaplingSpend.toSpend (spend : CachedSaplingSpend) : CompactSaplingSpend := ⟨spend.nf⟩

def CachedSaplingOutput.ofOutput (output : CompactSaplingOutput) : CachedSaplingOutput where
  cmu := output.cmu
  ephemeralKey := output.ephemeralKey
  ciphertext := output.ciphertext

def CachedSaplingOutput.toOutput (output : CachedSaplingOutput) : CompactSaplingOutput where
  cmu := output.cmu
  ephemeralKey := output.ephemeralKey
  ciphertext := output.ciphertext

def CachedIronwoodAction.ofAction (action : CompactIronwoodAction) : CachedIronwoodAction where
  nullifier := action.nullifier
  cmx := action.cmx
  ephemeralKey := action.ephemeralKey
  encCiphertext := action.encCiphertext
  outCiphertext := action.outCiphertext

def CachedIronwoodAction.toAction (action : CachedIronwoodAction) : CompactIronwoodAction where
  nullifier := action.nullifier
  cmx := action.cmx
  ephemeralKey := action.ephemeralKey
  encCiphertext := action.encCiphertext
  outCiphertext := action.outCiphertext

def CachedCompactTx.ofTx (tx : CompactTx) : CachedCompactTx where
  index := tx.index
  hash := tx.hash
  fee := tx.fee
  spends := tx.spends.map .ofSpend
  outputs := tx.outputs.map .ofOutput
  actions := tx.actions.map .ofAction

def CachedCompactTx.toTx (tx : CachedCompactTx) : CompactTx where
  index := tx.index
  hash := tx.hash
  fee := tx.fee
  spends := tx.spends.map CachedSaplingSpend.toSpend
  outputs := tx.outputs.map CachedSaplingOutput.toOutput
  actions := tx.actions.map CachedIronwoodAction.toAction

/-- `From<&CompactBlockData> for CachedCompactBlock`. -/
def CachedCompactBlock.ofData (block : CompactBlockData) : CachedCompactBlock where
  protoVersion := block.protoVersion
  height := block.height
  hash := block.hash
  prevHash := block.prevHash
  time := block.time
  header := block.header
  transactions := block.transactions.map .ofTx

/-- `From<CachedCompactBlock> for CompactBlockData`. -/
def CachedCompactBlock.toData (block : CachedCompactBlock) : CompactBlockData where
  protoVersion := block.protoVersion
  height := block.height
  hash := block.hash
  prevHash := block.prevHash
  time := block.time
  header := block.header
  transactions := block.transactions.map CachedCompactTx.toTx

def stripPrefix (magic bytes : Bytes) : Option Bytes :=
  if bytes.take magic.length = magic then some (bytes.drop magic.length) else none

/-- What the cache calls to write and read a block: prost's `encode` and `decode`,
`crc32fast::hash` and `serde_json::from_slice`. -/
structure BlockCodecs where
  encode : CachedCompactBlock → Except String Bytes
  decode : Bytes → Except String CachedCompactBlock
  crc32 : Bytes → UInt32
  fromSlice : Bytes → Except String CompactBlockData

namespace BlockCodecs

variable (codecs : BlockCodecs)

def encodeBlock (block : CompactBlockData) : Except String Bytes := do
  let payload ← codecs.encode (.ofData block)
  let checksum := ByteOrder.lowBytes CACHE_RECORD_CHECKSUM_LEN (codecs.crc32 payload).toNat
  return CACHE_RECORD_MAGIC ++ (checksum ++ payload)

/-- A row of the first version, as the tests still write it. -/
def encodeBlockV1 (block : CompactBlockData) : Except String Bytes := do
  let payload ← codecs.encode (.ofData block)
  return CACHE_RECORD_MAGIC_V1 ++ payload

/-- `CachedCompactBlock::decode(payload).map(CompactBlockData::from)`. -/
def decodePayload (payload : Bytes) : Except StorageError CompactBlockData :=
  ((codecs.decode payload).map CachedCompactBlock.toData).mapError .storage

def decodeBlock (bytes : Bytes) : Except StorageError CompactBlockData :=
  match stripPrefix CACHE_RECORD_MAGIC bytes with
  | some payload =>
    if payload.length < CACHE_RECORD_CHECKSUM_LEN then
      .error (.storage "Compact-block cache record is missing its integrity checksum")
    else
      let storedChecksum := ByteOrder.value (payload.take CACHE_RECORD_CHECKSUM_LEN)
      let payload := payload.drop CACHE_RECORD_CHECKSUM_LEN
      if storedChecksum ≠ (codecs.crc32 payload).toNat then
        .error (.storage "Compact-block cache record failed its integrity check")
      else codecs.decodePayload payload
  | none =>
    match stripPrefix CACHE_RECORD_MAGIC_V1 bytes with
    | some payload => codecs.decodePayload payload
    | none => (codecs.fromSlice bytes).mapError .storage

/-- Prost reads back what it has made of the block. -/
def RoundTrips (block : CompactBlockData) : Prop :=
  ∃ payload, codecs.encode (.ofData block) = .ok payload ∧
    codecs.decode payload = .ok (.ofData block)

/-- The rows that a writer makes of the block decode to the block. -/
def ReadsBack (write : CompactBlockData → Except String Bytes) (block : CompactBlockData) : Prop :=
  ∃ encoded, write block = .ok encoded ∧ codecs.decodeBlock encoded = .ok block

end BlockCodecs

theorem CachedCompactTx.toTx_ofTx (tx : CompactTx) : (CachedCompactTx.ofTx tx).toTx = tx := by
  cases tx with
  | mk index hash fee spends outputs actions =>
    have hspends : (spends.map CachedSaplingSpend.ofSpend).map (·.toSpend) = spends := by
      rw [List.map_map]
      exact List.map_id' spends
    have houtputs : (outputs.map CachedSaplingOutput.ofOutput).map (·.toOutput) = outputs := by
      rw [List.map_map]
      exact List.map_id' outputs
    have hactions : (actions.map CachedIronwoodAction.ofAction).map (·.toAction) = actions := by
      rw [List.map_map]
      exact List.map_id' actions
    simp only [ofTx, toTx, hspends, houtputs, hactions]

/-- No field of a block is left out, and none is changed. -/
theorem CachedCompactBlock.toData_ofData (block : CompactBlockData) :
    (CachedCompactBlock.ofData block).toData = block := by
  have htransactions :
      (block.transactions.map CachedCompactTx.ofTx).map (·.toTx) = block.transactions := by
    rw [List.map_map]
    exact List.map_id'' CachedCompactTx.toTx_ofTx _
  simp only [ofData, toData, htransactions]

@[simp] theorem stripPrefix_append (magic bytes : Bytes) :
    stripPrefix magic (magic ++ bytes) = some bytes := by
  unfold stripPrefix
  rw [if_pos List.take_left, List.drop_left]

/-- Another first byte is another format. -/
theorem stripPrefix_of_head {magic bytes : Bytes} (h : magic.head? ≠ bytes.head?)
    (hmagic : magic ≠ []) : stripPrefix magic bytes = none := by
  refine if_neg fun htake => h ?_
  rw [← htake, List.head?_take, if_neg (by simpa using hmagic)]

namespace BlockCodecs

variable {codecs : BlockCodecs} {block : CompactBlockData} {encoded payload : Bytes}

theorem encodeBlock_eq_ok (h : codecs.encodeBlock block = .ok encoded) :
    ∃ payload, codecs.encode (.ofData block) = .ok payload ∧
      encoded = CACHE_RECORD_MAGIC ++
        (ByteOrder.lowBytes CACHE_RECORD_CHECKSUM_LEN (codecs.crc32 payload).toNat ++ payload) := by
  obtain ⟨payload, hpayload, h⟩ := bind_eq_ok h
  exact ⟨payload, hpayload, (Except.ok.inj h).symm⟩

theorem take_encodeBlock (h : codecs.encodeBlock block = .ok encoded) :
    encoded.take 5 = CACHE_RECORD_MAGIC := by
  obtain ⟨payload, -, rfl⟩ := encodeBlock_eq_ok h
  rfl

/-- Four bytes hold the whole checksum. -/
theorem value_checksum (checksum : UInt32) :
    ByteOrder.value (ByteOrder.lowBytes CACHE_RECORD_CHECKSUM_LEN checksum.toNat) =
      checksum.toNat := by
  rw [ByteOrder.value_lowBytes]
  exact Nat.mod_eq_of_lt checksum.toNat_lt

/-- A record with the checksum of some payload, before this payload or another. -/
theorem decodeBlock_record (checksum : UInt32) (payload : Bytes) :
    codecs.decodeBlock (CACHE_RECORD_MAGIC ++
        (ByteOrder.lowBytes CACHE_RECORD_CHECKSUM_LEN checksum.toNat ++ payload)) =
      if checksum ≠ codecs.crc32 payload then
        .error (.storage "Compact-block cache record failed its integrity check")
      else codecs.decodePayload payload := by
  have hlength := ByteOrder.length_lowBytes CACHE_RECORD_CHECKSUM_LEN checksum.toNat
  have hlong : ¬ (ByteOrder.lowBytes CACHE_RECORD_CHECKSUM_LEN checksum.toNat ++ payload).length <
      CACHE_RECORD_CHECKSUM_LEN := by
    rw [List.length_append, hlength]
    omega
  unfold decodeBlock
  simp only [stripPrefix_append, if_neg hlong, List.take_left' hlength, List.drop_left' hlength,
    value_checksum, ne_eq, UInt32.toNat_inj]

theorem decodePayload_eq (h : codecs.decode payload = .ok (.ofData block)) :
    codecs.decodePayload payload = .ok block := by
  unfold decodePayload
  rw [h]
  exact congrArg Except.ok (CachedCompactBlock.toData_ofData block)

/-- A block is read back from its record. -/
theorem RoundTrips.readsBack (h : codecs.RoundTrips block) :
    codecs.ReadsBack codecs.encodeBlock block := by
  obtain ⟨payload, hencode, hdecode⟩ := h
  have hrecord := @decodeBlock_record codecs (codecs.crc32 payload) payload
  rw [if_neg (not_not_intro rfl), decodePayload_eq hdecode] at hrecord
  refine ⟨_, ?_, hrecord⟩
  unfold encodeBlock
  rw [hencode]
  rfl

/-- A block is read back from a row of the first version. -/
theorem RoundTrips.readsBackV1 (h : codecs.RoundTrips block) :
    codecs.ReadsBack codecs.encodeBlockV1 block := by
  obtain ⟨payload, hencode, hdecode⟩ := h
  refine ⟨CACHE_RECORD_MAGIC_V1 ++ payload, ?_, ?_⟩
  · unfold encodeBlockV1
    rw [hencode]
    rfl
  · have hother : stripPrefix CACHE_RECORD_MAGIC (CACHE_RECORD_MAGIC_V1 ++ payload) = none :=
      if_neg (by simp [CACHE_RECORD_MAGIC, CACHE_RECORD_MAGIC_V1])
    unfold decodeBlock
    simp only [hother, stripPrefix_append]
    exact decodePayload_eq hdecode

/-- A record whose payload has changed, and with it the checksum, is refused. -/
theorem decodeBlock_corrupted {corrupted : Bytes} (h : codecs.encodeBlock block = .ok encoded)
    (hhead : corrupted.take 9 = encoded.take 9)
    (hdetected : codecs.crc32 (corrupted.drop 9) ≠ codecs.crc32 (encoded.drop 9)) :
    codecs.decodeBlock corrupted =
      .error (.storage "Compact-block cache record failed its integrity check") := by
  obtain ⟨payload, -, rfl⟩ := encodeBlock_eq_ok h
  -- the nine bytes that stay are the magic and the checksum
  have hlength : (CACHE_RECORD_MAGIC ++
      ByteOrder.lowBytes CACHE_RECORD_CHECKSUM_LEN (codecs.crc32 payload).toNat).length = 9 := by
    rw [List.length_append, ByteOrder.length_lowBytes]
    rfl
  rw [← List.append_assoc, List.take_left' hlength] at hhead
  rw [← List.append_assoc, List.drop_left' hlength] at hdetected
  have hrecord := @decodeBlock_record codecs (codecs.crc32 payload) (corrupted.drop 9)
  rwa [if_pos hdetected.symm, ← List.append_assoc, ← hhead, List.take_append_drop] at hrecord

/-- A row that begins as a JSON object does is read as JSON. -/
theorem decodeBlock_json {text : Bytes} (hobject : text.head? = some 123)
    (h : codecs.fromSlice text = .ok block) : codecs.decodeBlock text = .ok block := by
  -- neither magic begins with a brace
  have hcurrent : stripPrefix CACHE_RECORD_MAGIC text = none :=
    stripPrefix_of_head (by simp [hobject, CACHE_RECORD_MAGIC]) (by simp [CACHE_RECORD_MAGIC])
  have hfirst : stripPrefix CACHE_RECORD_MAGIC_V1 text = none :=
    stripPrefix_of_head (by simp [hobject, CACHE_RECORD_MAGIC_V1])
      (by simp [CACHE_RECORD_MAGIC_V1])
  unfold decodeBlock
  simp only [hcurrent, hfirst, h]
  rfl

end BlockCodecs

end StashiWallet
