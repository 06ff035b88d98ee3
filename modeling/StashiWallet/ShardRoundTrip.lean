import StashiWallet.ShardStoreRuns

/-!
# The shard format is canonical

A shard is read back as it was written, and a byte string that is read is what the shard read
from it would be written as. Together the two say that `readShard` accepts the encodings of shards
followed by anything, and nothing else.

That the hashes, the optional hashes and the flags are canonical themselves is what the libraries
promise (`LeafCodec.Canonical`).
-/

namespace StashiWallet
namespace ShardStore

variable {H Flags : Type} {codec : LeafCodec H Flags}

/-- `read_shard` with what it leaves in its reader. -/
def readShardFrom (codec : LeafCodec H Flags) (data : Bytes) :
    Except String (PrunableTree H Flags × Bytes) := do
  let (version, data) ← readU8 data
  if version = SER_V1 then readShardV1 codec data.length data
  else .error s!"Shard serialization version not recognized: {version}"

/-- Hashes, optional hashes and flags have one encoding each. -/
structure LeafCodec.Canonical (codec : LeafCodec H Flags) : Prop where
  hash : ∀ data hash rest, codec.readHash data = .ok (hash, rest) →
    data = codec.writeHash hash ++ rest
  optional : ∀ data ann rest, codec.readOptional data = .ok (ann, rest) →
    data = codec.writeOptional ann ++ rest
  flags : ∀ byte flags, codec.fromBits byte = some flags → codec.bits flags = byte

theorem readU8_eq_ok {data rest : Bytes} {byte : UInt8} (h : readU8 data = .ok (byte, rest)) :
    data = byte :: rest := by
  cases data with
  | nil => cases h
  | cons first data =>
    obtain ⟨rfl, rfl⟩ := Prod.mk.inj (Except.ok.inj h)
    rfl

theorem readFlags_eq_ok (hcodec : codec.Canonical) {data rest : Bytes} {flags : Flags}
    (h : readFlags codec data = .ok (flags, rest)) : data = codec.bits flags :: rest := by
  obtain ⟨⟨byte, data'⟩, hread, h⟩ := bind_eq_ok h
  rw [readU8_eq_ok hread]
  dsimp only at h
  cases hflags : codec.fromBits byte with
  | none => rw [hflags] at h; cases h
  | some found =>
    rw [hflags] at h
    obtain ⟨rfl, rfl⟩ := Prod.mk.inj (Except.ok.inj h)
    rw [hcodec.flags _ _ hflags]

/-- What is read is an encoding of the tree, followed by what is left. -/
theorem readShardV1_eq_ok (hcodec : codec.Canonical) {fuel : Nat} {data rest : Bytes}
    {tree : PrunableTree H Flags} (h : readShardV1 codec fuel data = .ok (tree, rest)) :
    data = writeInner codec tree ++ rest := by
  induction fuel generalizing data rest tree with
  | zero => cases h
  | succ fuel ih =>
    obtain ⟨⟨tag, below⟩, hread, h⟩ := bind_eq_ok h
    rw [readU8_eq_ok hread]
    dsimp only at h
    by_cases hparent : tag = PARENT_TAG
    · rw [if_pos hparent] at h
      obtain ⟨⟨ann, afterAnn⟩, hann, h⟩ := bind_eq_ok h
      obtain ⟨⟨left, afterLeft⟩, hleft, h⟩ := bind_eq_ok h
      obtain ⟨⟨right, afterRight⟩, hright, h⟩ := bind_eq_ok h
      obtain ⟨rfl, rfl⟩ := Prod.mk.inj (Except.ok.inj h)
      dsimp only at hleft hright ⊢
      rw [hcodec.optional _ _ _ hann, ih hleft, ih hright, hparent]
      simp only [writeInner, List.cons_append, List.append_assoc]
    · rw [if_neg hparent] at h
      by_cases hleaf : tag = LEAF_TAG
      · rw [if_pos hleaf] at h
        obtain ⟨⟨value, afterValue⟩, hvalue, h⟩ := bind_eq_ok h
        obtain ⟨⟨flags, afterFlags⟩, hflags, h⟩ := bind_eq_ok h
        obtain ⟨rfl, rfl⟩ := Prod.mk.inj (Except.ok.inj h)
        dsimp only at hflags ⊢
        rw [hcodec.hash _ _ _ hvalue, readFlags_eq_ok hcodec hflags, hleaf]
        simp only [writeInner, List.cons_append, List.append_assoc, List.nil_append]
      · rw [if_neg hleaf] at h
        by_cases hnil : tag = NIL_TAG
        · rw [if_pos hnil] at h
          obtain ⟨rfl, rfl⟩ := Prod.mk.inj (Except.ok.inj h)
          rw [hnil]
          rfl
        · rw [if_neg hnil] at h
          cases h

/-- A node with an unknown tag is rejected, wherever it stands. -/
theorem readShardV1_unknown_tag {tag : UInt8} (rest : Bytes) (fuel : Nat)
    (h : tag ≠ PARENT_TAG ∧ tag ≠ LEAF_TAG ∧ tag ≠ NIL_TAG) :
    readShardV1 codec (fuel + 1) (tag :: rest) = .error s!"Node tag not recognized: {tag}" := by
  show (if tag = PARENT_TAG then _ else if tag = LEAF_TAG then _ else if tag = NIL_TAG then _
    else _) = _
  rw [if_neg h.1, if_neg h.2.1, if_neg h.2.2]

/-- A leaf with unknown flags is rejected, wherever it stands. -/
theorem readShardV1_unknown_flags {byte : UInt8} (value : H) (rest : Bytes) (fuel : Nat)
    (h : codec.fromBits byte = none) :
    readShardV1 codec (fuel + 1) (LEAF_TAG :: (codec.writeHash value ++ byte :: rest)) =
      .error s!"Byte value {byte} does not correspond to a valid set of retention flags" := by
  have hflags : readFlags codec (byte :: rest) = .error
      s!"Byte value {byte} does not correspond to a valid set of retention flags" := by
    simp only [readFlags, readU8, bind, Except.bind, h]
  have hparent : LEAF_TAG ≠ PARENT_TAG := by decide
  simp only [readShardV1, readU8, bind, Except.bind, if_neg hparent, if_true,
    codec.readHash_write, hflags]

/-- **The shard format is canonical.** A byte string is read as a tree with a remainder exactly
when it is the encoding of the tree followed by the remainder; unknown versions, tags and flags
are rejected. -/
theorem readShardFrom_eq_ok_iff (hcodec : codec.Canonical) :
    (∀ data tree rest, readShardFrom codec data = .ok (tree, rest) ↔
      data = writeShard codec tree ++ rest) ∧
    (∀ version rest, version ≠ SER_V1 → readShardFrom codec (version :: rest) =
      .error s!"Shard serialization version not recognized: {version}") ∧
    (∀ tag rest fuel, tag ≠ PARENT_TAG ∧ tag ≠ LEAF_TAG ∧ tag ≠ NIL_TAG →
      readShardV1 codec (fuel + 1) (tag :: rest) = .error s!"Node tag not recognized: {tag}") ∧
    ∀ byte value rest fuel, codec.fromBits byte = none →
      readShardV1 codec (fuel + 1) (LEAF_TAG :: (codec.writeHash value ++ byte :: rest)) =
        .error s!"Byte value {byte} does not correspond to a valid set of retention flags" := by
  refine ⟨?_, ?_, fun tag rest fuel h => readShardV1_unknown_tag rest fuel h,
    fun byte value rest fuel h => readShardV1_unknown_flags value rest fuel h⟩
  · intro data tree rest
    constructor
    · intro h
      obtain ⟨⟨version, below⟩, hread, h⟩ := bind_eq_ok h
      rw [readU8_eq_ok hread]
      dsimp only at h
      by_cases hversion : version = SER_V1
      · rw [if_pos hversion] at h
        rw [readShardV1_eq_ok hcodec h, hversion]
        rfl
      · rw [if_neg hversion] at h
        cases h
    · rintro rfl
      show readShardV1 codec (writeInner codec tree ++ rest).length
        (writeInner codec tree ++ rest) = _
      refine readShardV1_writeInner tree rest ?_
      rw [List.length_append]
      exact Nat.le_add_right _ _
  · intro version rest hversion
    show (if version = SER_V1 then _ else _) = _
    rw [if_neg hversion]

/-- Nodes of 32 bytes and three flags. -/
theorem readShardFrom_eq_ok_iff_node :
    (∀ data tree rest, readShardFrom nodeCodec data = .ok (tree, rest) ↔
      data = writeShard nodeCodec tree ++ rest) ∧
    readShardFrom nodeCodec (2 :: [0]) = .error "Shard serialization version not recognized: 2" ∧
    readShardV1 nodeCodec 1 [3] = .error "Node tag not recognized: 3" ∧
    readShardV1 nodeCodec 1 (LEAF_TAG :: (List.replicate 32 0 ++ [8])) =
      .error "Byte value 8 does not correspond to a valid set of retention flags" := by
  have hnode : ∀ data hash rest, readNode data = .ok (hash, rest) → data = hash.val ++ rest := by
    intro data hash rest h
    unfold readNode at h
    split_ifs at h with hlong
    obtain ⟨rfl, rfl⟩ := Prod.mk.inj (Except.ok.inj h)
    exact (List.take_append_drop 32 data).symm
  have hcodec : nodeCodec.Canonical := by
    refine ⟨hnode, ?_, ?_⟩
    · intro data ann rest h
      unfold nodeCodec at h ⊢
      dsimp only at h ⊢
      split at h
      · cases h
      · obtain ⟨rfl, rfl⟩ := Prod.mk.inj (Except.ok.inj h)
        rfl
      · obtain ⟨⟨hash, after⟩, hhash, h⟩ := bind_eq_ok h
        obtain ⟨rfl, rfl⟩ := Prod.mk.inj (Except.ok.inj h)
        exact congrArg (1 :: ·) (hnode _ _ _ hhash)
      · cases h
    · intro byte flags h
      unfold nodeCodec at h ⊢
      dsimp only at h ⊢
      split_ifs at h with hlt
      rw [← Option.some.inj h]
      exact UInt8.ofNat_toNat
  obtain ⟨hiff, hversion, htag, hflags⟩ := readShardFrom_eq_ok_iff hcodec
  exact ⟨hiff, hversion 2 [0] (by decide), htag 3 [] 0 (by decide),
    hflags 8 ⟨List.replicate 32 0, rfl⟩ [] 0 (by decide)⟩

end ShardStore
end StashiWallet
