import Mathlib.Data.List.Lex
import Mathlib.Tactic.Ring
import Mathlib.Tactic.Linarith

/-!
# Numbers as byte strings

A number of a fixed number of bytes is kept in two ways: little-endian, where it is counted
up byte by byte, and big-endian, where comparing the bytes in order compares the numbers.
`value` reads a little-endian string; the big-endian string is its reverse.
-/

namespace ByteOrder

/-- The number a little-endian byte string stands for. -/
def value : List UInt8 → Nat
  | [] => 0
  | byte :: rest => byte.toNat + 256 * value rest

/-- Adds one, carrying into the next byte; nothing if the carry leaves the string. -/
def increment : List UInt8 → Option (List UInt8)
  | [] => none
  | byte :: rest =>
    if byte + 1 ≠ 0 then some ((byte + 1) :: rest) else (increment rest).map (0 :: ·)

theorem value_lt (bytes : List UInt8) : value bytes < 256 ^ bytes.length := by
  induction bytes with
  | nil => simp [value]
  | cons byte rest ih =>
    have hbyte := byte.toNat_lt
    simp only [value, List.length_cons, pow_succ]
    omega

theorem increment_eq_some {bytes next : List UInt8} (h : increment bytes = some next) :
    value next = value bytes + 1 ∧ next.length = bytes.length := by
  induction bytes generalizing next with
  | nil => cases h
  | cons byte rest ih =>
    have hbyte := byte.toNat_lt
    have hwrap : (byte + 1).toNat = (byte.toNat + 1) % 256 := by
      rw [UInt8.toNat_add, UInt8.toNat_one]
    unfold increment at h
    split at h
    · rename_i hne
      cases h
      have hsmall : byte.toNat + 1 ≠ 256 := by
        intro hmax
        apply hne
        apply UInt8.toNat_inj.mp
        rw [hwrap, hmax, Nat.mod_self, UInt8.toNat_zero]
      have hmod : (byte.toNat + 1) % 256 = byte.toNat + 1 := Nat.mod_eq_of_lt (by omega)
      simp only [value, List.length_cons, hwrap, hmod, and_true]
      omega
    · rename_i hzero
      rw [ne_eq, not_not] at hzero
      obtain ⟨counted, hcounted, rfl⟩ := Option.map_eq_some_iff.mp h
      obtain ⟨hvalue, hlength⟩ := ih hcounted
      have hmax : (byte.toNat + 1) % 256 = 0 := by rw [← hwrap, hzero, UInt8.toNat_zero]
      simp only [value, List.length_cons, hlength, hvalue, UInt8.toNat_zero, and_true]
      omega

/-- The lowest bytes of a number. -/
def lowBytes : Nat → Nat → List UInt8
  | 0, _ => []
  | width + 1, number => number.toUInt8 :: lowBytes width (number / 256)

@[simp] theorem length_lowBytes (width number : Nat) : (lowBytes width number).length = width := by
  induction width generalizing number with
  | zero => rfl
  | succ width ih => exact congrArg (· + 1) (ih _)

theorem value_lowBytes (width number : Nat) :
    value (lowBytes width number) = number % 256 ^ width := by
  induction width generalizing number with
  | zero => exact (Nat.mod_one number).symm
  | succ width ih =>
    have hbyte : number.toUInt8.toNat = number % 256 := UInt8.toNat_ofNat'
    rw [lowBytes, value, ih, hbyte, pow_succ', Nat.mod_mul]

/-- The number of a string continued by more significant bytes. -/
theorem value_append (low high : List UInt8) :
    value (low ++ high) = value low + 256 ^ low.length * value high := by
  induction low with
  | nil => simp [value]
  | cons byte rest ih =>
    simp only [List.cons_append, value, ih, List.length_cons, pow_succ]
    ring

/-- Comparing big-endian strings of one length byte by byte compares the numbers. -/
theorem lt_iff_value_lt {a b : List UInt8} (hlength : a.length = b.length) :
    a < b ↔ value a.reverse < value b.reverse := by
  induction a generalizing b with
  | nil =>
    cases b with
    | nil => simp [value]
    | cons y ys => cases hlength
  | cons x xs ih =>
    cases b with
    | nil => cases hlength
    | cons y ys =>
      have hrest : xs.length = ys.length := Nat.succ.inj hlength
      have hx := value_lt xs.reverse
      have hy := value_lt ys.reverse
      rw [List.cons_lt_cons_iff, ih hrest, List.reverse_cons, List.reverse_cons, value_append,
        value_append, UInt8.lt_iff_toNat_lt, ← UInt8.toNat_inj]
      simp only [value, List.length_reverse, hrest, Nat.mul_zero, Nat.add_zero] at hx hy ⊢
      have hpow : 0 < 256 ^ ys.length := by positivity
      constructor
      · rintro (hlt | ⟨heq, hlt⟩)
        · nlinarith
        · rw [heq]
          omega
      · intro hlt
        by_cases heq : x.toNat = y.toNat
        · right
          rw [heq] at hlt
          exact ⟨heq, by omega⟩
        · left
          by_contra hge
          have : y.toNat + 1 ≤ x.toNat := by omega
          nlinarith

end ByteOrder
