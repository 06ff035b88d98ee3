import Mathlib.Data.List.Dedup
import Mathlib.Data.List.Sort
import StashiWallet.ByteOrder
import StashiWallet.Models
import StashiWallet.Runs
import StashiWallet.Sql

/-!
# Addresses

The table `addresses` and the calls that write it. An address is handed out by
`allocate_next_diversified_address`: under the write lock it takes the successor of the
largest 88-bit index of its group, an account, a key, a scope and a pool, and stores the
address derived at the first valid index from there on. Sync stores the addresses it finds
notes for by `upsert_address`, and files rows into the right group by
`repair_address_ownership`.

The table's constraints are part of its type, so a statement that would break one is refused:
the address text is unique, and so is the index within a group. A row may have no index; it
then takes no part in either query of the allocation.
-/

namespace StashiWallet

/-- `AddressType`; the source stores `Ironwood` under the name `Orchard`. -/
inductive AddressType where
  | sapling
  | ironwood
deriving DecidableEq, Repr

inductive AddressScope where
  | external
  | internal
deriving DecidableEq, Repr

/-- An 88-bit diversifier index, `[u8; 11]` in little-endian order. -/
abbrev Index88 : Type := { bytes : Bytes // bytes.length = 11 }

/-- The number an index stands for. -/
def Index88.value (index : Index88) : Nat := ByteOrder.value index.val

/-- `Address` without its row id. -/
structure Address where
  keyId : Option Int
  accountId : Int
  diversifierIndex : Nat
  diversifierIndex88 : Option Index88
  address : String
  addressType : AddressType
  label : Option String
  createdAt : Int
  colorTag : Nat
  addressScope : AddressScope
deriving DecidableEq, Repr

/-- A row of `addresses`. -/
structure AddressRow where
  id : Nat
  accountId : Int
  keyId : Option Int
  diversifierIndex : Int
  address : String
  addressType : AddressType
  label : Option String
  createdAt : Int
  colorTag : Nat
  addressScope : AddressScope
  diversifierIndexBe : Option Bytes
deriving DecidableEq, Repr

/-- What addresses are allocated for. -/
structure AddressGroup where
  accountId : Int
  keyId : Int
  scope : AddressScope
  addressType : AddressType
deriving DecidableEq, Repr

/-- The columns of `idx_addresses_full_diversifier`, for the rows the index covers. -/
def AddressRow.fullIndex (row : AddressRow) :
    Option (Int × Int × AddressScope × AddressType × Bytes) :=
  match row.keyId, row.diversifierIndexBe with
  | some keyId, some index => some (row.accountId, keyId, row.addressScope, row.addressType, index)
  | _, _ => none

/-- The constraints of the table. -/
def AddressConstraints (rows : List AddressRow) : Prop :=
  (rows.map (·.id)).Nodup ∧ (rows.map (·.address)).Nodup ∧
    (rows.filterMap AddressRow.fullIndex).Nodup ∧
    ∀ row ∈ rows, ∀ index ∈ row.diversifierIndexBe, index.length = 11

instance (rows : List AddressRow) : Decidable (AddressConstraints rows) :=
  inferInstanceAs (Decidable (_ ∧ _ ∧ _ ∧ _))

/-- The table `addresses`. -/
structure AddressTable where
  rows : List AddressRow
  constraints : AddressConstraints rows

namespace AddressTable

/-- A statement that would leave the given rows: refused if they break a constraint. -/
def write (rows : List AddressRow) : Except StorageError AddressTable :=
  if h : AddressConstraints rows then .ok ⟨rows, h⟩
  else .error (.database "UNIQUE constraint failed")

def ofGroup (group : AddressGroup) (table : AddressTable) : List AddressRow :=
  table.rows.filter (fun row => row.accountId == group.accountId &&
    row.keyId == some group.keyId && row.addressScope == group.scope &&
    row.addressType == group.addressType)

/-! ## The next index -/

/-- `u32::try_from` on a stored sequence number. -/
def sequenceOf (stored : Int) : Except StorageError Nat :=
  if 0 ≤ stored ∧ stored ≤ u32Max then .ok stored.toNat
  else .error (.storage "Stored address sequence is invalid")

/-- The search of `get_next_diversifier_index_for_scope_and_type` for a free sequence number,
in the sorted numbers that are used. -/
def lowestFree (free : Nat) : List Int → Except StorageError Nat
  | [] => .ok free
  | row :: rest => do
    let stored ← sequenceOf row
    if stored < free then lowestFree free rest
    else if free < stored then return free
    else if free = u32Max then throw (.storage "Address sequence is exhausted")
    else lowestFree (free + 1) rest

/-- `get_next_diversifier_index_for_scope_and_type`. -/
def nextDiversifierIndex (group : AddressGroup) (table : AddressTable) :
    Except StorageError Nat :=
  match (table.ofGroup group).map (·.diversifierIndex) with
  | [] => .ok 0
  | first :: rest => do
    let maxIndex ← sequenceOf (rest.foldl max first)
    if maxIndex < u32Max then return maxIndex + 1
    lowestFree 0 (((first :: rest).dedup).insertionSort (· ≤ ·))

def encodeDiversifierIndexBe (index : Index88) : Bytes := index.val.reverse

/-- The index of eleven zeros. -/
def zeroIndex : Index88 := ⟨List.replicate 11 0, List.length_replicate⟩

def incrementDiversifierIndex (index : Index88) : Except StorageError Index88 :=
  match h : ByteOrder.increment index.val with
  | some next => .ok ⟨next, (ByteOrder.increment_eq_some h).2.trans index.property⟩
  | none => .error (.storage "ZIP-32 diversifier index space is exhausted")

/-- `ORDER BY diversifier_index_be DESC LIMIT 1`: blobs are compared byte by byte. -/
def largestIndex : List Bytes → Option Bytes
  | [] => none
  | first :: rest => some (rest.foldl (fun best index => if best < index then index else best) first)

/-- `get_next_diversifier_index_88_for_scope_and_type`. -/
def nextDiversifierIndex88 (group : AddressGroup) (table : AddressTable) :
    Except StorageError Index88 :=
  match largestIndex ((table.ofGroup group).filterMap (·.diversifierIndexBe)) with
  | none => .ok zeroIndex
  | some encoded =>
    if h : encoded.reverse.length = 11 then incrementDiversifierIndex ⟨encoded.reverse, h⟩
    else .error (.storage "Stored ZIP-32 diversifier index has an invalid length")

/-! ## The writers -/

/-- The row `upsert_address` inserts. -/
def newRow (address : Address) (table : AddressTable) : AddressRow where
  id := (table.rows.map (·.id)).foldl max 0 + 1
  accountId := address.accountId
  keyId := address.keyId
  diversifierIndex := address.diversifierIndex
  address := address.address
  addressType := address.addressType
  label := address.label
  createdAt := address.createdAt
  colorTag := address.colorTag
  addressScope := address.addressScope
  diversifierIndexBe := address.diversifierIndex88.map encodeDiversifierIndexBe

/-- `ON CONFLICT(address) DO UPDATE SET …`. -/
def mergeRow (row excluded : AddressRow) : AddressRow :=
  { row with
    accountId := excluded.accountId
    keyId := excluded.keyId.or row.keyId
    diversifierIndex :=
      if excluded.diversifierIndex = 0 then row.diversifierIndex else excluded.diversifierIndex
    addressType := excluded.addressType
    label := excluded.label.or row.label
    addressScope := if row.addressScope = .internal then .internal else excluded.addressScope
    diversifierIndexBe := excluded.diversifierIndexBe.or row.diversifierIndexBe }

def upsertAddress (address : Address) (table : AddressTable) : Except StorageError AddressTable :=
  if table.rows.any (fun row => row.address == address.address) then
    write (table.rows.map (fun row =>
      if row.address = address.address then mergeRow row (table.newRow address) else row))
  else write (table.rows ++ [table.newRow address])

def repairAddressOwnership (address : Address) (table : AddressTable) :
    Except StorageError AddressTable :=
  match address.keyId, address.diversifierIndex88 with
  | none, _ => .error (.storage "Address ownership repair requires a key group")
  | some _, none => .error (.storage "Address ownership repair requires a ZIP-32 index")
  | some keyId, some index =>
    let isTarget := fun (row : AddressRow) =>
      row.accountId == address.accountId && row.address == address.address
    if table.rows.countP isTarget = 1 then
      write (table.rows.map (fun row => if isTarget row then
        { row with
          keyId := some keyId
          addressType := address.addressType
          addressScope := address.addressScope
          diversifierIndexBe := some (encodeDiversifierIndexBe index) }
        else row))
    else .error (.storage "Address ownership repair target is unavailable")

/-- What happens inside the transaction of `allocate_next_diversified_address`. -/
def allocateBody (group : AddressGroup) (build : Nat → Index88 → Except StorageError Address)
    (table : AddressTable) : Except StorageError (Address × AddressTable) := do
  let nextIndex ← table.nextDiversifierIndex group
  let nextIndex88 ← table.nextDiversifierIndex88 group
  let address ← build nextIndex nextIndex88
  match address.diversifierIndex88 with
  | none => throw (.storage "Address derivation did not return a ZIP-32 index")
  | some actualIndex =>
    if encodeDiversifierIndexBe actualIndex < encodeDiversifierIndexBe nextIndex88 then
      throw (.storage "Address derivation moved the ZIP-32 index backwards")
    return (address, ← table.upsertAddress address)

end AddressTable

/-! ## Calls on a connection -/

/-- A connection: the table it sees, and the table at the `BEGIN` of a transaction that was
left open. -/
structure AddressStore where
  table : AddressTable
  begun : Option AddressTable

/-- The statement of an allocation that the database refuses, if one is. -/
inductive AllocateFault where
  | begin
  | body
  | commit
deriving DecidableEq, Repr

/-- `allocate_next_diversified_address`. -/
def AddressStore.allocate (group : AddressGroup)
    (build : Nat → Index88 → Except StorageError Address) (fault : Option AllocateFault)
    (store : AddressStore) : Except StorageError Address × AddressStore :=
  if store.begun.isSome then
    (.error (.database "cannot start a transaction within a transaction"), store)
  else match fault, store.table.allocateBody group build with
    | some .begin, _ => (.error (.database "BEGIN IMMEDIATE"), store)
    | some .body, _ => (.error (.database "statement"), store)
    | _, .error error => (.error error, store)
    -- `COMMIT` is not followed by `ROLLBACK`
    | some .commit, .ok (_, table) => (.error (.database "COMMIT"), ⟨table, some store.table⟩)
    | none, .ok (address, table) => (.ok address, ⟨table, none⟩)

/-- The addresses of a key in one scope and pool: the one at each valid index. -/
structure Derivation where
  addressAt : Nat → Option String
  injective : ∀ {i j address}, addressAt i = some address → addressAt j = some address → i = j

/-- A closure for an allocation: the address at the first valid index from the given one on,
for the group. -/
structure DiversifiedBuild (group : AddressGroup) (derivation : Derivation) where
  build : Nat → Index88 → Except StorageError Address
  first_valid : ∀ {sequence first address}, build sequence first = .ok address →
    ∃ index : Index88, address.diversifierIndex88 = some index ∧ first.value ≤ index.value ∧
      derivation.addressAt index.value = some address.address ∧
      ∀ i, first.value ≤ i → i < index.value → derivation.addressAt i = none
  in_group : ∀ {sequence first address}, build sequence first = .ok address →
    address.accountId = group.accountId ∧ address.keyId = some group.keyId ∧
      address.addressScope = group.scope ∧ address.addressType = group.addressType

/-- A call on the table while addresses of one group are allocated. -/
inductive AddressCall (group : AddressGroup) (derivation : Derivation) where
  | allocate (builder : DiversifiedBuild group derivation) (fault : Option AllocateFault)
  | upsert (address : Address)
  | repair (address : Address)

section Calls

variable {group : AddressGroup} {derivation : Derivation}

/-- The address a call allocates, if it does, and the connection after it. -/
def AddressStore.call (store : AddressStore) :
    AddressCall group derivation → Option Address × AddressStore
  | .allocate builder fault =>
    ((store.allocate group builder.build fault).1.toOption,
      (store.allocate group builder.build fault).2)
  | .upsert address =>
    (none, { store with table := settle store.table (store.table.upsertAddress address) })
  | .repair address =>
    (none, { store with table := settle store.table (store.table.repairAddressOwnership address) })

def AddressStore.after (store : AddressStore) (call : AddressCall group derivation) :
    AddressStore := (store.call call).2

/-- The addresses a sequence of calls allocates. -/
def AddressStore.allocations (store : AddressStore) :
    List (AddressCall group derivation) → List Address
  | [] => []
  | call :: rest => (store.call call).1.toList ++ (store.after call).allocations rest

end Calls

/-! ## The stored addresses -/

namespace AddressTable

def addresses (table : AddressTable) : List String := table.rows.map (·.address)

variable {table table' : AddressTable} {address : Address} {group : AddressGroup}

theorem write_eq_ok {rows : List AddressRow} (h : write rows = .ok table) : table.rows = rows := by
  unfold write at h
  split at h
  · cases h
    rfl
  · cases h

/-- An upsert adds its address and keeps the others. -/
theorem mem_addresses_upsert (h : table.upsertAddress address = .ok table') {text : String} :
    text ∈ table'.addresses ↔ text ∈ table.addresses ∨ text = address.address := by
  unfold upsertAddress at h
  split at h
  · rename_i hstored
    obtain ⟨row, hrow, htext⟩ := List.any_eq_true.mp hstored
    have hsame : table'.addresses = table.addresses := by
      unfold addresses
      rw [write_eq_ok h, List.map_map]
      refine List.map_congr_left (fun other _ => ?_)
      simp only [Function.comp_apply]
      split
      · rfl
      · rfl
    rw [hsame]
    constructor
    · exact Or.inl
    · rintro (hmem | rfl)
      · exact hmem
      · exact List.mem_map.mpr ⟨row, hrow, by simpa using htext⟩
  · unfold addresses
    rw [write_eq_ok h, List.map_append, List.mem_append]
    simp [newRow]

theorem addresses_repair (h : table.repairAddressOwnership address = .ok table') :
    table'.addresses = table.addresses := by
  unfold repairAddressOwnership at h
  split at h
  · cases h
  · cases h
  · dsimp only at h
    split at h
    · unfold addresses
      rw [write_eq_ok h, List.map_map]
      refine List.map_congr_left (fun row _ => ?_)
      simp only [Function.comp_apply]
      split
      · rfl
      · rfl
    · cases h

/-! ## The largest index -/

theorem largestIndex_spec {indices : List Bytes} {largest : Bytes}
    (hlength : ∀ index ∈ indices, index.length = 11) (h : largestIndex indices = some largest) :
    ∀ index ∈ indices, ByteOrder.value index.reverse ≤ ByteOrder.value largest.reverse := by
  cases indices with
  | nil => cases h
  | cons first rest =>
    cases h
    -- the running maximum is at least everything read so far
    have hfold : ∀ (rest : List Bytes) (best : Bytes), best.length = 11 →
        (∀ index ∈ rest, index.length = 11) → ∀ index ∈ best :: rest,
        ByteOrder.value index.reverse ≤ ByteOrder.value
          (rest.foldl (fun best index => if best < index then index else best) best).reverse := by
      intro rest
      induction rest with
      | nil =>
        intro best _ _ index hindex
        rw [List.mem_singleton.mp hindex]
        exact le_rfl
      | cons next rest ih =>
        intro best hbest hrest index hindex
        have hnext : next.length = 11 := hrest next List.mem_cons_self
        have htail : ∀ index ∈ rest, index.length = 11 :=
          fun index hmem => hrest index (List.mem_cons_of_mem next hmem)
        rw [List.foldl_cons]
        have hlt := ByteOrder.lt_iff_value_lt (hbest.trans hnext.symm)
        split
        · rename_i hless
          have hkept := ih next hnext htail
          rcases List.mem_cons.mp hindex with rfl | hmem
          · exact (hlt.mp hless).le.trans (hkept next List.mem_cons_self)
          · exact hkept index hmem
        · rename_i hless
          have hkept := ih best hbest htail
          rcases List.mem_cons.mp hindex with rfl | hmem
          · exact hkept _ List.mem_cons_self
          rcases List.mem_cons.mp hmem with rfl | hmem
          · have hle := hkept best List.mem_cons_self
            rw [hlt, not_lt] at hless
            exact hless.trans hle
          · exact hkept index (List.mem_cons_of_mem best hmem)
    exact hfold rest first (hlength first List.mem_cons_self)
      (fun index hmem => hlength index (List.mem_cons_of_mem first hmem))

/-- The next index is above every index recorded in the group. -/
theorem lt_nextDiversifierIndex88 {first : Index88}
    (h : table.nextDiversifierIndex88 group = .ok first) {row : AddressRow}
    (hrow : row ∈ table.ofGroup group) {index : Bytes}
    (hindex : row.diversifierIndexBe = some index) :
    ByteOrder.value index.reverse < first.value := by
  have hmem : index ∈ (table.ofGroup group).filterMap (·.diversifierIndexBe) :=
    List.mem_filterMap.mpr ⟨row, hrow, hindex⟩
  have hlength : ∀ index ∈ (table.ofGroup group).filterMap (·.diversifierIndexBe),
      index.length = 11 := by
    intro index hmem
    obtain ⟨row, hrow, hindex⟩ := List.mem_filterMap.mp hmem
    exact table.constraints.2.2.2 row (List.mem_of_mem_filter hrow) index hindex
  unfold nextDiversifierIndex88 at h
  split at h
  · rename_i hnone
    cases hlist : (table.ofGroup group).filterMap (·.diversifierIndexBe) with
    | nil =>
      rw [hlist] at hmem
      cases hmem
    | cons x xs =>
      rw [hlist] at hnone
      cases hnone
  · rename_i largest hlargest
    have hle := largestIndex_spec hlength hlargest index hmem
    split at h
    · unfold incrementDiversifierIndex at h
      split at h
      · rename_i next hnext
        cases h
        have hvalue := (ByteOrder.increment_eq_some hnext).1
        exact lt_of_le_of_lt hle (by rw [Index88.value, hvalue]; exact Nat.lt_succ_self _)
      · cases h
    · cases h

/-- The largest index recorded in the group is at least that of every stored address. -/
def Covers (group : AddressGroup) (derivation : Derivation) (table : AddressTable) : Prop :=
  ∀ row ∈ table.rows, ∀ i, derivation.addressAt i = some row.address →
    ∃ recorded ∈ table.ofGroup group, ∃ index, recorded.diversifierIndexBe = some index ∧
      i ≤ ByteOrder.value index.reverse

/-- What an allocation does: it stores the address of an index above all indices recorded in
the group. -/
theorem allocateBody_eq_ok {derivation : Derivation}
    {builder : DiversifiedBuild group derivation}
    (h : table.allocateBody group builder.build = .ok (address, table')) :
    ∃ index : Index88, address.diversifierIndex88 = some index ∧
      derivation.addressAt index.value = some address.address ∧
      (∀ row ∈ table.ofGroup group, ∀ recorded, row.diversifierIndexBe = some recorded →
        ByteOrder.value recorded.reverse < index.value) ∧
      table.upsertAddress address = .ok table' := by
  obtain ⟨sequence, _, h⟩ := bind_eq_ok h
  obtain ⟨first, hfirst, h⟩ := bind_eq_ok h
  obtain ⟨built, hbuilt, h⟩ := bind_eq_ok h
  obtain ⟨index, hindex, hle, haddress, _⟩ := builder.first_valid hbuilt
  rw [hindex] at h
  dsimp only at h
  split at h
  · cases h
  · obtain ⟨upserted, hupserted, h⟩ := bind_eq_ok h
    cases h
    refine ⟨index, hindex, haddress, ?_, hupserted⟩
    intro row hrow recorded hrecorded
    exact lt_of_lt_of_le (lt_nextDiversifierIndex88 hfirst hrow hrecorded) hle

/-- Where the recorded indices cover the stored addresses, an allocated address is new. -/
theorem not_mem_addresses_of_allocateBody {derivation : Derivation}
    {builder : DiversifiedBuild group derivation} (hcovers : table.Covers group derivation)
    (h : table.allocateBody group builder.build = .ok (address, table')) :
    address.address ∉ table.addresses := by
  obtain ⟨index, _, haddress, habove, _⟩ := allocateBody_eq_ok h
  intro hstored
  obtain ⟨row, hrow, htext⟩ := List.mem_map.mp hstored
  rw [← htext] at haddress
  obtain ⟨recorded, hrecorded, bytes, hbytes, hle⟩ := hcovers row hrow _ haddress
  have hlt := habove recorded hrecorded bytes hbytes
  omega

/-- An allocation keeps the indices covering: only the writes of sync can lose that. -/
theorem Covers.allocateBody {derivation : Derivation}
    {builder : DiversifiedBuild group derivation} (hcovers : table.Covers group derivation)
    (h : table.allocateBody group builder.build = .ok (address, table')) :
    table'.Covers group derivation := by
  have hnew := not_mem_addresses_of_allocateBody hcovers h
  obtain ⟨sequence, _, hbody⟩ := bind_eq_ok h
  obtain ⟨first, _, hbody⟩ := bind_eq_ok hbody
  obtain ⟨built, hbuilt, hbody⟩ := bind_eq_ok hbody
  obtain ⟨index, hindex, haddress, habove, hupsert⟩ := allocateBody_eq_ok h
  have hsame : built = address := by
    split at hbody
    · cases hbody
    · split at hbody
      · cases hbody
      · obtain ⟨upserted, _, hbody⟩ := bind_eq_ok hbody
        cases hbody
        rfl
  subst hsame
  obtain ⟨haccount, hkey, hscope, htype⟩ := builder.in_group hbuilt
  have hrows : table'.rows = table.rows ++ [table.newRow built] := by
    unfold upsertAddress at hupsert
    split at hupsert
    · rename_i hstored
      obtain ⟨row, hrow, htext⟩ := List.any_eq_true.mp hstored
      exact absurd (List.mem_map.mpr ⟨row, hrow, by simpa using htext⟩) hnew
    · exact write_eq_ok hupsert
  have hgroup : table'.ofGroup group = table.ofGroup group ++ [table.newRow built] := by
    unfold ofGroup
    rw [hrows, List.filter_append]
    simp [newRow, haccount, hkey, hscope, htype]
  intro row hrow i hi
  rw [hgroup]
  rw [hrows, List.mem_append, List.mem_singleton] at hrow
  rcases hrow with hrow | rfl
  · obtain ⟨recorded, hrecorded, bytes, hbytes, hle⟩ := hcovers row hrow i hi
    exact ⟨recorded, List.mem_append_left _ hrecorded, bytes, hbytes, hle⟩
  · refine ⟨table.newRow built, by simp, encodeDiversifierIndexBe index, ?_, ?_⟩
    · simp [newRow, hindex]
    · have heq : i = index.value := derivation.injective hi haddress
      rw [heq, encodeDiversifierIndexBe, List.reverse_reverse]
      exact le_rfl

end AddressTable

/-! ## Sequences of calls -/

section Sequences

variable {group : AddressGroup} {derivation : Derivation} {store : AddressStore}

/-- A call that does what an allocation is for: an address it returns was not stored before,
and where it returns an error, nothing has changed. -/
def AllocatesFresh (store : AddressStore) (call : AddressCall group derivation) : Prop :=
  ∀ builder fault, call = .allocate builder fault →
    match store.allocate group builder.build fault with
    | (.ok address, _) => address.address ∉ store.table.addresses
    | (.error _, after) => after = store

/-- An allocation made where the recorded indices cover the stored addresses, and whose
`COMMIT` is not refused. -/
def AllocatesCovered (store : AddressStore) (call : AddressCall group derivation) : Prop :=
  ∀ builder fault, call = .allocate builder fault →
    fault ≠ some .commit ∧ store.table.Covers group derivation

theorem AddressStore.allocate_eq_ok {builder : DiversifiedBuild group derivation}
    {fault : Option AllocateFault} {address : Address} {after : AddressStore}
    (h : store.allocate group builder.build fault = (.ok address, after)) :
    store.table.allocateBody group builder.build = .ok (address, after.table) := by
  unfold AddressStore.allocate at h
  split at h
  · cases h
  · split at h
    · cases h
    · cases h
    · cases h
    · cases h
    · rename_i hbody
      cases h
      exact hbody

theorem AddressStore.allocate_eq_error {builder : DiversifiedBuild group derivation}
    {fault : Option AllocateFault} {error : StorageError} {after : AddressStore}
    (hfault : fault ≠ some .commit)
    (h : store.allocate group builder.build fault = (.error error, after)) : after = store := by
  unfold AddressStore.allocate at h
  split at h
  · cases h
    rfl
  · split at h
    · cases h
      rfl
    · cases h
      rfl
    · cases h
      rfl
    · exact absurd rfl hfault
    · cases h

theorem AllocatesCovered.fresh {call : AddressCall group derivation}
    (h : AllocatesCovered store call) : AllocatesFresh store call := by
  rintro builder fault rfl
  obtain ⟨hfault, hcovers⟩ := h builder fault rfl
  cases hresult : store.allocate group builder.build fault with
  | mk result after =>
    cases result with
    | ok address =>
      exact AddressTable.not_mem_addresses_of_allocateBody hcovers
        (AddressStore.allocate_eq_ok hresult)
    | error error => exact AddressStore.allocate_eq_error hfault hresult

/-- Whatever a call does, the stored addresses stay, and an allocated address is one of them
afterwards. -/
theorem AddressStore.addresses_after (call : AddressCall group derivation)
    (hcall : AllocatesCovered store call) :
    (∀ text ∈ store.table.addresses, text ∈ (store.after call).table.addresses) ∧
      ∀ address ∈ (store.call call).1, address.address ∈ (store.after call).table.addresses := by
  cases call with
  | allocate builder fault =>
    unfold AddressStore.after AddressStore.call
    dsimp only
    cases hresult : store.allocate group builder.build fault with
    | mk result after =>
      cases result with
      | ok address =>
        obtain ⟨_, _, _, _, hupsert⟩ :=
          AddressTable.allocateBody_eq_ok (AddressStore.allocate_eq_ok hresult)
        have hmem := @AddressTable.mem_addresses_upsert _ _ _ hupsert
        refine ⟨fun text htext => hmem.mpr (Or.inl htext), ?_⟩
        intro allocated hallocated
        cases hallocated
        exact hmem.mpr (Or.inr rfl)
      | error error =>
        rw [AddressStore.allocate_eq_error (hcall builder fault rfl).1 hresult]
        exact ⟨fun _ htext => htext, fun _ h => by cases h⟩
  | upsert address =>
    refine ⟨?_, fun _ h => by cases h⟩
    intro text htext
    show text ∈ (settle store.table (store.table.upsertAddress address)).addresses
    cases hupsert : store.table.upsertAddress address with
    | ok table => exact (AddressTable.mem_addresses_upsert hupsert).mpr (Or.inl htext)
    | error error => exact htext
  | repair address =>
    refine ⟨?_, fun _ h => by cases h⟩
    intro text htext
    show text ∈ (settle store.table (store.table.repairAddressOwnership address)).addresses
    cases hrepair : store.table.repairAddressOwnership address with
    | ok table =>
      rw [← AddressTable.addresses_repair hrepair] at htext
      exact htext
    | error error => exact htext

/-- No address that is stored at the start is allocated, and none twice. -/
theorem AddressStore.allocations_nodup (calls : List (AddressCall group derivation))
    (hcalls : Runs.EachStep AddressStore.after AllocatesCovered store calls) :
    ((store.allocations calls).map (·.address)).Nodup ∧
      ∀ address ∈ store.allocations calls, address.address ∉ store.table.addresses := by
  induction calls generalizing store with
  | nil => exact ⟨List.nodup_nil, fun _ h => by cases h⟩
  | cons call rest ih =>
    obtain ⟨hcall, hrest⟩ := Runs.eachStep_cons.mp hcalls
    obtain ⟨hnodup, hlater⟩ := ih hrest
    obtain ⟨hkept, hstored⟩ := AddressStore.addresses_after call hcall
    have hfresh : ∀ address ∈ (store.call call).1, address.address ∉ store.table.addresses := by
      intro address haddress
      cases call with
      | allocate builder fault =>
        have hthis := hcall.fresh builder fault rfl
        replace haddress :
            address ∈ (store.allocate group builder.build fault).1.toOption := haddress
        cases hresult : store.allocate group builder.build fault with
        | mk result after =>
          rw [hresult] at hthis haddress
          cases result with
          | ok allocated =>
            cases haddress
            exact hthis
          | error error => cases haddress
      | upsert _ => cases haddress
      | repair _ => cases haddress
    have hall : store.allocations (call :: rest) =
        (store.call call).1.toList ++ (store.after call).allocations rest := rfl
    rw [hall, List.map_append, List.nodup_append]
    refine ⟨⟨?_, hnodup, ?_⟩, ?_⟩
    · cases (store.call call).1 with
      | none => exact List.nodup_nil
      | some address => exact List.nodup_singleton _
    · intro first hfirst second hsecond heq
      obtain ⟨address, haddress, rfl⟩ := List.mem_map.mp hfirst
      obtain ⟨other, hother, rfl⟩ := List.mem_map.mp hsecond
      refine hlater other hother ?_
      rw [← heq]
      exact hstored address (Option.mem_toList.mp haddress)
    · intro address haddress
      rcases List.mem_append.mp haddress with hmem | hmem
      · exact hfresh address (Option.mem_toList.mp hmem)
      · exact fun hstart => hlater address hmem (hkept _ hstart)

/-- **Allocated addresses.** In a sequence of allocations of one group and writes of sync, on
any table content: if every allocation is made where the largest index recorded in the group
is at least that of every stored address of the key, and its `COMMIT` is not refused, then no
two allocations return one address, none returns an address already stored, and an allocation
that fails changes nothing. -/
theorem allocations_distinct (group : AddressGroup) (derivation : Derivation)
    (store : AddressStore) (calls : List (AddressCall group derivation))
    (hcalls : Runs.EachStep AddressStore.after AllocatesCovered store calls) :
    ((store.allocations calls).map (·.address)).Nodup ∧
      Runs.EachStep AddressStore.after AllocatesFresh store calls := by
  refine ⟨(AddressStore.allocations_nodup calls hcalls).1, ?_⟩
  intro done call rest hsplit
  exact (hcalls done call rest hsplit).fresh

end Sequences

/-! ## A row without an index -/

/-- Addresses for small cases: the one at index `i` ends in `i` letters. -/
def lettersDerivation : Derivation where
  addressAt i := some ("pirate1" ++ String.ofList (List.replicate i 'q'))
  injective := by
    intro i j address hi hj
    have heq : "pirate1" ++ String.ofList (List.replicate i 'q') =
        "pirate1" ++ String.ofList (List.replicate j 'q') :=
      (Option.some.inj hi).trans (Option.some.inj hj).symm
    have hlength := congrArg String.length heq
    simpa using hlength

/-- The group the small cases allocate for. -/
def lettersGroup : AddressGroup := ⟨1, 77, .external, .ironwood⟩

/-- The address at an index, every index being valid. -/
def lettersAddress (sequence : Nat) (index : Index88) : Address where
  keyId := some 77
  accountId := 1
  diversifierIndex := sequence
  diversifierIndex88 := some index
  address := "pirate1" ++ String.ofList (List.replicate index.value 'q')
  addressType := .ironwood
  label := none
  createdAt := 1
  colorTag := 0
  addressScope := .external

/-- A closure over `lettersAddress`. -/
def lettersBuild : DiversifiedBuild lettersGroup lettersDerivation where
  build sequence index := .ok (lettersAddress sequence index)
  first_valid := by
    rintro sequence first address h
    cases h
    refine ⟨first, rfl, le_rfl, rfl, ?_⟩
    intro i hfirst hlt
    omega
  in_group := by
    rintro sequence first address h
    cases h
    exact ⟨rfl, rfl, rfl, rfl⟩

def AddressStore.fresh : AddressStore :=
  ⟨⟨[], by decide⟩, none⟩

/-- Two allocations on an empty table return two addresses. -/
theorem allocations_distinct_twice :
    (AddressStore.fresh.allocations
        [AddressCall.allocate lettersBuild none, .allocate lettersBuild none]).map (·.address) =
      ["pirate1", "pirate1q"] ∧
    ((AddressStore.fresh.allocations
        [AddressCall.allocate lettersBuild none, .allocate lettersBuild none]).map
          (·.address)).Nodup := by
  refine ⟨by decide +kernel, (allocations_distinct lettersGroup lettersDerivation
    AddressStore.fresh [.allocate lettersBuild none, .allocate lettersBuild none] ?_).1⟩
  have hstart : AddressStore.fresh.table.Covers lettersGroup lettersDerivation :=
    List.forall_mem_nil _
  refine Runs.eachStep_cons.mpr ⟨?_, Runs.eachStep_cons.mpr ⟨?_, Runs.eachStep_nil⟩⟩
  · rintro builder fault ⟨rfl, rfl⟩
    exact ⟨by decide, hstart⟩
  · rintro builder fault ⟨rfl, rfl⟩
    have hbody := @AddressStore.allocate_eq_ok _ _ AddressStore.fresh lettersBuild none
      (lettersAddress 0 AddressTable.zeroIndex) _ rfl
    exact ⟨by decide, hstart.allocateBody hbody⟩

/-- A row of the group stored before indices were recorded. -/
def legacyStore : AddressStore :=
  ⟨⟨[⟨1, 1, some 77, 0, "pirate1", .ironwood, none, 1, 0, .external, none⟩], by decide⟩, none⟩

/-- The first allocation returns the address of the row without an index, which is stored
already. -/
theorem allocation_returns_stored_address :
    (legacyStore.allocations [AddressCall.allocate lettersBuild none]).map (·.address) =
        ["pirate1"] ∧
      "pirate1" ∈ legacyStore.table.addresses ∧
      ¬ Runs.EachStep AddressStore.after AllocatesFresh legacyStore
        [AddressCall.allocate lettersBuild none] := by
  have hresult : (legacyStore.allocate lettersGroup lettersBuild.build none).1 =
      .ok (lettersAddress 1 AddressTable.zeroIndex) := by decide +kernel
  refine ⟨by decide +kernel, by decide, ?_⟩
  intro hfresh
  have hthis := (Runs.eachStep_cons.mp hfresh).1 lettersBuild none rfl
  cases hcall : legacyStore.allocate lettersGroup lettersBuild.build none with
  | mk result after =>
    rw [hcall] at hresult hthis
    dsimp only at hresult
    rw [hresult] at hthis
    exact hthis (by decide +kernel)

end StashiWallet
