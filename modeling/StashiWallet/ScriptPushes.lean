import StashiWallet.ByteOrder

/-!
# Scripts that only push

A script of pushes leaves its data on the stack. An opcode up to 75 pushes as many bytes as it
says; three more are followed by the number of bytes, which has one, two or four bytes; the small
numbers have opcodes of their own. A script that is cut off, or has any other opcode, is no script
of pushes.
-/

namespace ScriptPushes

/-- Some bytes, and what is behind them. -/
def takeBytes (count : Nat) (script : List UInt8) : Option (List UInt8 × List UInt8) :=
  if script.length < count then none else some (script.take count, script.drop count)

/-- As many bytes as the first bytes say, and what is behind them. -/
def takeCounted (width : Nat) (script : List UInt8) : Option (List UInt8 × List UInt8) :=
  (takeBytes width script).bind fun counted =>
    takeBytes (ByteOrder.value counted.1) counted.2

/-- The first push of a script, and what is behind it. -/
def readPush : List UInt8 → Option (List UInt8 × List UInt8)
  | [] => none
  | opcode :: script =>
    if opcode.toNat ≤ 75 then takeBytes opcode.toNat script
    else if opcode = 0x4c then takeCounted 1 script
    else if opcode = 0x4d then takeCounted 2 script
    else if opcode = 0x4e then takeCounted 4 script
    else if opcode = 0x4f then some ([0x81], script)
    else if 0x51 ≤ opcode ∧ opcode ≤ 0x60 then some ([opcode - 0x50], script)
    else none

/-- The pushes of a script, as long as there is fuel. -/
def readPushes : Nat → List UInt8 → Option (List (List UInt8))
  | _, [] => some []
  | 0, _ :: _ => none
  | fuel + 1, script =>
    (readPush script).bind fun push => (readPushes fuel push.2).map (push.1 :: ·)

/-- What a script of pushes leaves on the stack, the lowest first. -/
def stackItems (script : List UInt8) : Option (List (List UInt8)) :=
  readPushes script.length script

variable {script item rest : List UInt8} {items : List (List UInt8)}

theorem takeBytes_append (item rest : List UInt8) :
    takeBytes item.length (item ++ rest) = some (item, rest) := by
  unfold takeBytes
  rw [if_neg (by simp), List.take_left, List.drop_left]

theorem length_of_takeBytes {count : Nat} (h : takeBytes count script = some (item, rest)) :
    item.length = count := by
  unfold takeBytes at h
  split at h
  · cases h
  · rename_i henough
    obtain ⟨rfl, -⟩ := Prod.mk.inj (Option.some.inj h)
    exact List.length_take_of_le (Nat.le_of_not_lt henough)

/-- A count is read back if its bytes can hold it. -/
theorem takeCounted_lowBytes {width : Nat} (h : item.length < 256 ^ width) :
    takeCounted width (ByteOrder.lowBytes width item.length ++ (item ++ rest)) =
      some (item, rest) := by
  have hcount := takeBytes_append (ByteOrder.lowBytes width item.length) (item ++ rest)
  rw [ByteOrder.length_lowBytes] at hcount
  unfold takeCounted
  rw [hcount, Option.bind_some, ByteOrder.value_lowBytes, Nat.mod_eq_of_lt h]
  exact takeBytes_append item rest

theorem length_of_takeCounted {width : Nat} (h : takeCounted width script = some (item, rest)) :
    item.length < 256 ^ width := by
  obtain ⟨⟨count, behind⟩, hcount, hitem⟩ := Option.bind_eq_some_iff.mp h
  rw [length_of_takeBytes hitem, ← length_of_takeBytes hcount]
  exact ByteOrder.value_lt count

/-- No push has more bytes than four bytes can count. -/
theorem length_of_readPush (h : readPush script = some (item, rest)) : item.length < 2 ^ 32 := by
  cases script with
  | nil => cases h
  | cons opcode script =>
    simp only [readPush] at h
    split_ifs at h with hdirect
    · rw [length_of_takeBytes h]
      omega
    · exact (length_of_takeCounted h).trans (by norm_num)
    · exact (length_of_takeCounted h).trans (by norm_num)
    · exact (length_of_takeCounted h).trans_eq (by norm_num)
    · obtain ⟨rfl, -⟩ := Prod.mk.inj (Option.some.inj h)
      decide
    · obtain ⟨rfl, -⟩ := Prod.mk.inj (Option.some.inj h)
      simp

theorem length_of_readPushes {fuel : Nat} (h : readPushes fuel script = some items)
    (hitem : item ∈ items) : item.length < 2 ^ 32 := by
  induction fuel generalizing script items with
  | zero =>
    cases script with
    | nil =>
      obtain rfl := Option.some.inj h
      cases hitem
    | cons opcode script => cases h
  | succ fuel ih =>
    cases script with
    | nil =>
      obtain rfl := Option.some.inj h
      cases hitem
    | cons opcode script =>
      obtain ⟨⟨first, behind⟩, hfirst, hmore⟩ := Option.bind_eq_some_iff.mp h
      obtain ⟨later, hlater, rfl⟩ := Option.map_eq_some_iff.mp hmore
      rcases List.mem_cons.mp hitem with rfl | hitem
      · exact length_of_readPush hfirst
      · exact ih hlater hitem

/-- Pushes that are read back one by one are read back from a script of them. -/
theorem readPushes_flatten {push : List UInt8 → List UInt8}
    (h : ∀ item ∈ items, ∀ rest, readPush (push item ++ rest) = some (item, rest)) {fuel : Nat}
    (hfuel : (items.map push).flatten.length ≤ fuel) :
    readPushes fuel (items.map push).flatten = some items := by
  induction items generalizing fuel with
  | nil =>
    cases fuel with
    | zero => rfl
    | succ fuel => rfl
  | cons item items ih =>
    rw [List.map_cons, List.flatten_cons] at hfuel ⊢
    have hfirst := h item List.mem_cons_self (items.map push).flatten
    cases hpush : push item ++ (items.map push).flatten with
    | nil =>
      rw [hpush] at hfirst
      cases hfirst
    | cons opcode script =>
      cases fuel with
      | zero =>
        rw [hpush] at hfuel
        cases hfuel
      | succ fuel =>
        -- a push has its opcode at least, so that one unit of fuel is enough for it
        have hshorter : (items.map push).flatten.length ≤ fuel := by
          have hsome : push item ≠ [] := by
            intro hempty
            have hnone := h item List.mem_cons_self []
            rw [hempty] at hnone
            cases hnone
          have hpositive := List.length_pos_iff.mpr hsome
          rw [List.length_append] at hfuel
          omega
        rw [readPushes, ← hpush, hfirst, Option.bind_some,
          ih (fun item hitem => h item (List.mem_cons_of_mem _ hitem)) hshorter]
        rfl
        · intro hnil
          cases hnil

end ScriptPushes
