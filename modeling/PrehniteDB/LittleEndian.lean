import Mathlib.Tactic.Ring
import Mathlib.Data.UInt

namespace LittleEndian

/-!
# Little-endian numbers

A number of a fixed width is a sequence of bytes, the least significant first.
Bytes are read from and written to any array of bytes indexed by `Nat`.
-/

/-- Byte `position` of `number`. -/
def byte (number position : Nat) : UInt8 :=
  UInt8.ofNat (number / 256 ^ position)

/-- The number that `width` bytes spell. -/
def value (bytes : Nat → UInt8) : Nat → Nat
  | 0 => 0
  | width + 1 => value bytes width + (bytes width).toNat * 256 ^ width

theorem byte_toNat (number position : Nat) :
    (byte number position).toNat = number / 256 ^ position % 256 := by
  simp [byte]

theorem value_congr
    {bytes other : Nat → UInt8}
    {width : Nat}
    (agree : ∀ position < width, bytes position = other position) :
    value bytes width = value other width := by
  induction width with
  | zero => rfl
  | succ width inductionHypothesis =>
      simp only [value]
      rw [inductionHypothesis fun position below => agree position (by omega),
        agree width (Nat.lt_succ_self width)]

/-- Reading back what was written keeps the low bytes of the number. -/
theorem value_byte (number width : Nat) :
    value (byte number) width = number % 256 ^ width := by
  induction width with
  | zero => simp [value, Nat.mod_one]
  | succ width inductionHypothesis =>
      simp only [value, inductionHypothesis, byte_toNat, Nat.pow_succ]
      rw [Nat.mod_mul]
      ring

theorem value_byte_of_lt
    {number width : Nat}
    (fits : number < 256 ^ width) :
    value (byte number) width = number := by
  rw [value_byte, Nat.mod_eq_of_lt fits]

end LittleEndian
