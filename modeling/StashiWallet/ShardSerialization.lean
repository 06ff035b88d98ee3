import StashiWallet.Models
import StashiWallet.Sql

/-!
# Shards as bytes

A shard of a commitment tree is a binary tree whose subtrees may have been pruned; a parent may
keep the hash of what was below it. `writeShard` and `readShard` are the form in which a shard
stands in the database. What a hash, an optional hash and the flags of a leaf look like as bytes
belongs to the tree and encoding libraries and is a parameter.

Reading takes a tag and goes on below it; the fuel is the number of bytes, of which every tag takes
one, so it does not run out before the bytes do.
-/

namespace StashiWallet
namespace ShardStore

/-- `PrunableTree`: `Tree<Option<Arc<H>>, (H, RetentionFlags)>`. -/
inductive PrunableTree (H Flags : Type) where
  | parent (ann : Option H) (left right : PrunableTree H Flags)
  | leaf (value : H) (flags : Flags)
  | nil
deriving DecidableEq

/-- How the libraries write and read hashes (`HashSer`), optional hashes (`Optional` around
`HashSer`) and retention flags, and that each reads back what it has written. -/
structure LeafCodec (H Flags : Type) where
  writeHash : H → Bytes
  readHash : Bytes → Except String (H × Bytes)
  readHash_write : ∀ hash rest, readHash (writeHash hash ++ rest) = .ok (hash, rest)
  writeOptional : Option H → Bytes
  readOptional : Bytes → Except String (Option H × Bytes)
  readOptional_write : ∀ ann rest, readOptional (writeOptional ann ++ rest) = .ok (ann, rest)
  bits : Flags → UInt8
  fromBits : UInt8 → Option Flags
  fromBits_bits : ∀ flags, fromBits (bits flags) = some flags

namespace PrunableTree

variable {H Flags : Type}

/-- The levels below the root. -/
def depth : PrunableTree H Flags → Nat
  | .parent _ left right => max left.depth right.depth + 1
  | .leaf _ _ => 0
  | .nil => 0

/-- `root().annotation()`. -/
def annotation : PrunableTree H Flags → Option H
  | .parent ann _ _ => ann
  | _ => none

def reannotateRoot (ann : Option H) : PrunableTree H Flags → PrunableTree H Flags
  | .parent _ left right => .parent ann left right
  | tree => tree

end PrunableTree

def SER_V1 : UInt8 := 1

def NIL_TAG : UInt8 := 0

def LEAF_TAG : UInt8 := 1

def PARENT_TAG : UInt8 := 2

section Codec

variable {H Flags : Type} (codec : LeafCodec H Flags)

def readU8 : Bytes → Except String (UInt8 × Bytes)
  | [] => .error "failed to fill whole buffer"
  | byte :: rest => .ok (byte, rest)

def writeInner : PrunableTree H Flags → Bytes
  | .parent ann left right =>
    PARENT_TAG :: (codec.writeOptional ann ++ writeInner left ++ writeInner right)
  | .leaf value flags => LEAF_TAG :: (codec.writeHash value ++ [codec.bits flags])
  | .nil => [NIL_TAG]

def writeShard (tree : PrunableTree H Flags) : Bytes := SER_V1 :: writeInner codec tree

/-- The flags of a leaf. -/
def readFlags (data : Bytes) : Except String (Flags × Bytes) := do
  let (bits, data) ← readU8 data
  match codec.fromBits bits with
  | some flags => return (flags, data)
  | none =>
    .error s!"Byte value {bits} does not correspond to a valid set of retention flags"

def readShardV1 : Nat → Bytes → Except String (PrunableTree H Flags × Bytes)
  | 0, _ => .error "failed to fill whole buffer"
  | fuel + 1, data => do
    let (tag, data) ← readU8 data
    if tag = PARENT_TAG then
      let (ann, data) ← codec.readOptional data
      let (left, data) ← readShardV1 fuel data
      let (right, data) ← readShardV1 fuel data
      return (.parent ann left right, data)
    else if tag = LEAF_TAG then
      let (value, data) ← codec.readHash data
      let (flags, data) ← readFlags codec data
      return (.leaf value flags, data)
    else if tag = NIL_TAG then return (.nil, data)
    else .error s!"Node tag not recognized: {tag}"

/-- `read_shard`; bytes after the tree are not looked at. -/
def readShard (data : Bytes) : Except String (PrunableTree H Flags) := do
  let (version, data) ← readU8 data
  if version = SER_V1 then
    let (tree, _) ← readShardV1 codec data.length data
    return tree
  else .error s!"Shard serialization version not recognized: {version}"

variable {codec}

theorem readFlags_bits (flags : Flags) (rest : Bytes) :
    readFlags codec (codec.bits flags :: rest) = .ok (flags, rest) := by
  show (match codec.fromBits (codec.bits flags) with
    | some flags => (.ok (flags, rest) : Except String (Flags × Bytes))
    | none => _) = _
  rw [codec.fromBits_bits]

theorem one_le_length_writeInner (tree : PrunableTree H Flags) :
    1 ≤ (writeInner codec tree).length := by
  cases tree with
  | parent ann left right => exact Nat.le_add_left 1 _
  | leaf value flags => exact Nat.le_add_left 1 _
  | nil => exact Nat.le_refl 1

/-- A tree is read back, with what follows it left over, once the fuel covers its bytes. -/
theorem readShardV1_writeInner (tree : PrunableTree H Flags) (rest : Bytes) {fuel : Nat}
    (hfuel : (writeInner codec tree).length ≤ fuel) :
    readShardV1 codec fuel (writeInner codec tree ++ rest) = .ok (tree, rest) := by
  induction tree generalizing rest fuel with
  | nil =>
    obtain ⟨fuel, rfl⟩ := Nat.exists_eq_succ_of_ne_zero (Nat.one_le_iff_ne_zero.mp hfuel)
    rfl
  | leaf value flags =>
    obtain ⟨fuel, rfl⟩ := Nat.exists_eq_succ_of_ne_zero
      (Nat.one_le_iff_ne_zero.mp ((one_le_length_writeInner _).trans hfuel))
    show (codec.readHash ((codec.writeHash value ++ [codec.bits flags]) ++ rest) >>=
      fun (value, data) => readFlags codec data >>= fun (flags, data) =>
        (.ok (.leaf value flags, data) : Except String (PrunableTree H Flags × Bytes))) = _
    rw [List.append_assoc, codec.readHash_write]
    show (readFlags codec (codec.bits flags :: rest) >>= fun (flags, data) =>
      (.ok (.leaf value flags, data) : Except String (PrunableTree H Flags × Bytes))) = _
    rw [readFlags_bits]
    rfl
  | parent ann left right ihLeft ihRight =>
    obtain ⟨fuel, rfl⟩ := Nat.exists_eq_succ_of_ne_zero
      (Nat.one_le_iff_ne_zero.mp ((one_le_length_writeInner _).trans hfuel))
    have hlength : (writeInner codec left).length ≤ fuel ∧
        (writeInner codec right).length ≤ fuel := by
      unfold writeInner at hfuel
      rw [List.length_cons, List.length_append, List.length_append] at hfuel
      omega
    show (codec.readOptional ((codec.writeOptional ann ++ writeInner codec left ++
        writeInner codec right) ++ rest) >>= fun (ann, data) =>
      readShardV1 codec fuel data >>= fun (left, data) =>
      readShardV1 codec fuel data >>= fun (right, data) =>
        (.ok (.parent ann left right, data) : Except String (PrunableTree H Flags × Bytes))) = _
    rw [List.append_assoc, List.append_assoc, codec.readOptional_write]
    show (readShardV1 codec fuel (writeInner codec left ++ (writeInner codec right ++ rest)) >>=
      fun (left, data) => readShardV1 codec fuel data >>= fun (right, data) =>
        (.ok (.parent ann left right, data) : Except String (PrunableTree H Flags × Bytes))) = _
    rw [ihLeft _ hlength.1]
    show (readShardV1 codec fuel (writeInner codec right ++ rest) >>= fun (right, data) =>
      (.ok (.parent ann left right, data) : Except String (PrunableTree H Flags × Bytes))) = _
    rw [ihRight _ hlength.2]
    rfl

/-- What was written is read back. -/
theorem readShard_writeShard (tree : PrunableTree H Flags) :
    readShard codec (writeShard codec tree) = .ok tree := by
  show (readShardV1 codec (writeInner codec tree).length (writeInner codec tree) >>=
    fun (tree, _) => (.ok tree : Except String (PrunableTree H Flags))) = _
  have hread := @readShardV1_writeInner H Flags codec tree [] _ (Nat.le_refl _)
  rw [List.append_nil] at hread
  rw [hread]
  rfl

end Codec

end ShardStore
end StashiWallet
