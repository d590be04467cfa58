import Mathlib.Data.List.TakeWhile
import PrehniteDB.BinaryRounding
import PrehniteDB.KeyOrder

namespace PrehniteDB

open BinaryRounding (Canonical bits nearest place rounded)

/-!
# `f64`s as text

`str::parse` rounds a decimal text to the nearest number.  `Display` writes the
fewest digits that are read back as the number, without an exponent.
-/

/-- `str::parse::<f64>` of digits, perhaps with a point between them. -/
def parseReal (text : List Char) : UInt64 :=
  let whole := text.takeWhile (· ≠ '.')
  let fraction := (text.dropWhile (· ≠ '.')).drop 1
  nearest (Nat.ofDigitChars 10 (whole ++ fraction) 0) fraction.length

/-- `number / 10 ^ places`. -/
structure Decimal where
  number : Nat
  places : Nat
  deriving Repr, DecidableEq

namespace Decimal

def bits (decimal : Decimal) : UInt64 := nearest decimal.number decimal.places

def text (decimal : Decimal) : List Char :=
  if decimal.places = 0 then Nat.toDigits 10 decimal.number
  else
    Nat.toDigits 10 (decimal.number / 10 ^ decimal.places) ++
      '.' :: List.leftpad decimal.places '0'
        (Nat.toDigits 10 (decimal.number % 10 ^ decimal.places))

theorem isDigit_of_mem_toDigits {number : Nat} {char : Char}
    (listed : char ∈ Nat.toDigits 10 number) : char.isDigit :=
  Nat.isDigit_of_mem_toDigits (by decide) (by decide) listed

theorem ne_point_of_isDigit {char : Char} (digit : char.isDigit) : char ≠ '.' := by
  rintro rfl
  exact absurd digit (by decide)

/-- The digits behind the point. -/
def fraction (decimal : Decimal) : List Char :=
  List.leftpad decimal.places '0' (Nat.toDigits 10 (decimal.number % 10 ^ decimal.places))

theorem isDigit_of_mem_fraction {decimal : Decimal} {char : Char}
    (listed : char ∈ decimal.fraction) : char.isDigit := by
  rcases List.mem_append.mp listed with zero | digit
  · rw [List.eq_of_mem_replicate zero]
    decide
  · exact isDigit_of_mem_toDigits digit

theorem length_fraction (decimal : Decimal) (some : decimal.places ≠ 0) :
    decimal.fraction.length = decimal.places := by
  unfold fraction
  rw [List.length_leftpad, max_eq_left]
  rw [Nat.length_toDigits_le_iff (by decide) (Nat.pos_of_ne_zero some)]
  exact Nat.mod_lt _ (Nat.pow_pos (by decide))

theorem ofDigitChars_fraction (decimal : Decimal) :
    Nat.ofDigitChars 10 decimal.fraction 0 = decimal.number % 10 ^ decimal.places := by
  unfold fraction List.leftpad
  rw [Nat.ofDigitChars_append, Nat.ofDigitChars_replicate_zero, mul_zero,
    Nat.ofDigitChars_ten_toDigits]

theorem parseReal_digits (number : Nat) :
    parseReal (Nat.toDigits 10 number) = nearest number 0 := by
  have free : ∀ char ∈ Nat.toDigits 10 number, (decide (char ≠ '.')) = true := by
    intro char listed
    exact decide_eq_true (ne_point_of_isDigit (isDigit_of_mem_toDigits listed))
  unfold parseReal
  rw [List.takeWhile_eq_self_iff.mpr free, List.dropWhile_eq_nil_iff.mpr free]
  simp

theorem parseReal_point
    (whole fraction : List Char)
    (digits : ∀ char ∈ whole, char.isDigit) :
    parseReal (whole ++ '.' :: fraction) =
      nearest (Nat.ofDigitChars 10 (whole ++ fraction) 0) fraction.length := by
  have free : ∀ char ∈ whole, (decide (char ≠ '.')) = true := by
    intro char listed
    exact decide_eq_true (ne_point_of_isDigit (digits char listed))
  unfold parseReal
  rw [List.takeWhile_append_of_pos free, List.dropWhile_append_of_pos free]
  simp

theorem parseReal_text (decimal : Decimal) : parseReal decimal.text = decimal.bits := by
  unfold text bits
  split
  case isTrue none => rw [parseReal_digits, none]
  case isFalse some =>
    change parseReal (_ ++ '.' :: decimal.fraction) = _
    rw [parseReal_point _ _ fun _ => isDigit_of_mem_toDigits, Nat.ofDigitChars_append,
      Nat.ofDigitChars_ten_toDigits, Nat.ofDigitChars_eq_ofDigitChars_zero,
      ofDigitChars_fraction, length_fraction decimal some, Nat.div_add_mod]

end Decimal

/-! ## The shortest decimal -/

section Magnitude

variable (magnitude : UInt64)

def mantissa : Nat :=
  if magnitude.toNat / 2 ^ 52 = 0 then magnitude.toNat % 2 ^ 52
  else magnitude.toNat % 2 ^ 52 + 2 ^ 52

/-- The magnitude stands for `mantissa * 2 ^ exponent`. -/
def exponent : Int := max (magnitude.toNat / 2 ^ 52 : Nat) 1 - 1075

/-- The nearer one of the two decimals around the number, of those that are read as it. -/
def decimalAt (precision : Int) : Option Decimal :=
  let scaled := mantissa magnitude * 2 ^ (exponent magnitude).toNat * 10 ^ precision.toNat
  let unit := 2 ^ (-exponent magnitude).toNat * 10 ^ (-precision).toNat
  let decimal (count : Nat) : Decimal :=
    { number := count * 10 ^ (-precision).toNat, places := precision.toNat }
  let below := decimal (scaled / unit)
  let above := decimal (scaled / unit + 1)
  if above.bits = magnitude ∧ (below.bits ≠ magnitude ∨ unit ≤ 2 * (scaled % unit)) then
    some above
  else if below.bits = magnitude then some below
  else none

/-- The digits before the point. -/
def wholeDigits : Nat :=
  (Nat.toDigits 10
    (mantissa magnitude * 2 ^ (exponent magnitude).toNat /
      2 ^ (-exponent magnitude).toNat)).length

/-- The first precision that suffices gives the fewest digits. -/
def shortest : Decimal :=
  ((List.range (wholeDigits magnitude + 1075)).findSome? fun step : Nat =>
    decimalAt magnitude ((step : Int) - wholeDigits magnitude)).getD { number := 0, places := 0 }

end Magnitude

section Shortest

variable {magnitude : UInt64}

theorem decimalAt_bits {precision : Int} {decimal : Decimal}
    (found : decimalAt magnitude precision = some decimal) : decimal.bits = magnitude := by
  unfold decimalAt at found
  dsimp only at found
  split at found
  case isTrue above =>
    obtain rfl := Option.some.inj found
    exact above.1
  case isFalse =>
    obtain ⟨below, same⟩ := Option.ite_none_right_eq_some.mp found
    obtain rfl := Option.some.inj same
    exact below

/-- The bits as they are laid out. -/
theorem canonical_place (finite : magnitude.toNat < 2047 * 2 ^ 52) (some : mantissa magnitude ≠ 0) :
    Canonical (mantissa magnitude) (exponent magnitude) ∧ exponent magnitude ≤ 971 ∧
      place (mantissa magnitude) (exponent magnitude) = magnitude.toNat := by
  unfold mantissa at some
  unfold place mantissa exponent
  refine ⟨?_, by omega, ?_⟩
  · constructor
    · exact some
    · split <;> omega
    · omega
    · split <;> omega
  · split <;> split <;> omega

theorem bits_rounded (finite : magnitude.toNat < 2047 * 2 ^ 52) (some : mantissa magnitude ≠ 0) :
    bits (rounded (mantissa magnitude) (exponent magnitude)) = magnitude := by
  obtain ⟨canonical, low, placed⟩ := canonical_place finite some
  apply UInt64.toNat_inj.mp
  rw [canonical.pack_toNat, if_pos low, placed]

/-- The digits of the number as it is are read as the number. -/
theorem nearest_expansion (finite : magnitude.toNat < 2047 * 2 ^ 52) :
    nearest
        (mantissa magnitude * 2 ^ (exponent magnitude).toNat *
          5 ^ (-exponent magnitude).toNat)
        (-exponent magnitude).toNat =
      magnitude := by
  by_cases none : mantissa magnitude = 0
  · rw [none, zero_mul, zero_mul, BinaryRounding.nearest_zero]
    apply UInt64.toNat_inj.mp
    unfold mantissa at none
    split at none
    · simp only [UInt64.toNat_zero]
      omega
    · omega
  · obtain ⟨canonical, low, -⟩ := canonical_place finite none
    have above := canonical.above
    have reached := bits_rounded finite none
    by_cases whole : 0 ≤ exponent magnitude
    · obtain ⟨places, same⟩ := Int.eq_ofNat_of_zero_le whole
      have shifted := BinaryRounding.rounded_shiftLeft none (places : Int) places
      rw [sub_self] at shifted
      have positive : mantissa magnitude <<< places ≠ 0 := by
        rw [Nat.shiftLeft_eq]
        exact Nat.mul_ne_zero none (Nat.two_pow_pos places).ne'
      have digits : (-(places : Int)).toNat = 0 := by omega
      rw [same] at reached ⊢
      rw [digits, Int.toNat_natCast, pow_zero, mul_one, ← Nat.shiftLeft_eq,
        BinaryRounding.nearest_whole positive, shifted, reached]
    · obtain ⟨places, same⟩ : ∃ places : Nat, exponent magnitude = -(places : Int) :=
        ⟨(-exponent magnitude).toNat, by omega⟩
      have digits : (-(places : Int)).toNat = 0 := by omega
      rw [same] at reached ⊢
      rw [digits, neg_neg, Int.toNat_natCast, pow_zero, mul_one]
      refine (BinaryRounding.nearest_exact
        (Nat.mul_ne_zero none (Nat.pow_pos (by decide)).ne') ?_ (by omega) (by omega)
        (.inr ⟨canonical.short, by omega⟩)).trans reached
      rw [mul_assoc, ← mul_pow]
      rfl

theorem decimalAt_expansion (finite : magnitude.toNat < 2047 * 2 ^ 52) :
    (decimalAt magnitude (-exponent magnitude).toNat).isSome := by
  have exact := nearest_expansion finite
  have scaled :
      mantissa magnitude * 2 ^ (exponent magnitude).toNat * 10 ^ (-exponent magnitude).toNat =
        2 ^ (-exponent magnitude).toNat *
          (mantissa magnitude * 2 ^ (exponent magnitude).toNat *
            5 ^ (-exponent magnitude).toNat) := by
    have tens : 10 ^ (-exponent magnitude).toNat =
        2 ^ (-exponent magnitude).toNat * 5 ^ (-exponent magnitude).toNat := by
      rw [← mul_pow]
      rfl
    rw [tens]
    ring
  have none : (-((-exponent magnitude).toNat : Int)).toNat = 0 := by omega
  unfold decimalAt
  dsimp only
  simp only [none, Int.toNat_natCast, pow_zero, mul_one, scaled,
    Nat.mul_div_cancel_left _ (Nat.two_pow_pos _), Decimal.bits, exact]
  split <;> simp

theorem shortest_bits (finite : magnitude.toNat < 2047 * 2 ^ 52) :
    (shortest magnitude).bits = magnitude := by
  unfold shortest
  cases found : (List.range (wholeDigits magnitude + 1075)).findSome? fun step : Nat =>
      decimalAt magnitude ((step : Int) - wholeDigits magnitude) with
  | some decimal =>
      obtain ⟨step, -, reached⟩ := List.exists_of_findSome?_eq_some found
      exact decimalAt_bits reached
  | none =>
      have expansion := decimalAt_expansion finite
      have least : (-exponent magnitude).toNat < 1075 := by
        unfold exponent
        omega
      have step : wholeDigits magnitude + (-exponent magnitude).toNat ∈
          List.range (wholeDigits magnitude + 1075) := by
        rw [List.mem_range]
        omega
      have missing := List.findSome?_eq_none_iff.mp found _ step
      have precision :
          ((wholeDigits magnitude + (-exponent magnitude).toNat : Nat) : Int) -
            wholeDigits magnitude = (-exponent magnitude).toNat := by omega
      rw [precision] at missing
      rw [missing] at expansion
      simp at expansion

end Shortest

def REAL_INFINITY : UInt64 := 0x7FF0000000000000

def displayMagnitude (magnitude : UInt64) : List Char :=
  if magnitude = REAL_INFINITY then "inf".toList else (shortest magnitude).text

/-- `{}`. -/
def displayReal (bits : UInt64) : List Char :=
  if realIsNaN bits then "NaN".toList
  else
    (if bits &&& 0x8000000000000000 ≠ 0 then ['-'] else []) ++
      displayMagnitude (bits &&& 0x7FFFFFFFFFFFFFFF)

theorem displayReal_finite
    {bits : UInt64}
    {sign : Bool}
    {magnitude : Nat}
    (split : SignSplit bits sign magnitude)
    (finite : magnitude < 2047 * 2 ^ 52) :
    displayReal bits =
      (if sign then ['-'] else []) ++ (shortest (UInt64.ofNat magnitude)).text := by
  have low : bits &&& 0x7FFFFFFFFFFFFFFF = UInt64.ofNat magnitude := by
    apply UInt64.toNat_inj.mp
    rw [split.low, UInt64.toNat_ofNat']
    omega
  have number : realIsNaN bits = false := by
    have infinity : (0x7FF0000000000000 : UInt64).toNat = 2047 * 2 ^ 52 := rfl
    unfold realIsNaN
    rw [decide_eq_false_iff_not, UInt64.lt_iff_toNat_lt, infinity, split.low]
    omega
  have apart : UInt64.ofNat magnitude ≠ REAL_INFINITY := by
    intro same
    have values := congrArg UInt64.toNat same
    have infinity : REAL_INFINITY.toNat = 2047 * 2 ^ 52 := rfl
    rw [infinity, UInt64.toNat_ofNat'] at values
    omega
  unfold displayReal displayMagnitude
  rw [number, if_neg Bool.false_ne_true, low, if_neg apart]
  cases sign with
  | true => rw [if_pos (split.sign_ne_zero.mpr rfl), if_pos rfl]
  | false =>
      have clear : ¬ bits &&& 0x8000000000000000 ≠ 0 := fun set =>
        Bool.false_ne_true (split.sign_ne_zero.mp set)
      rw [if_neg clear, if_neg Bool.false_ne_true]

end PrehniteDB
