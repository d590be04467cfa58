import Mathlib

namespace PrehniteDB.BinaryRounding

open Float.Model (Format totalExponent)
open Float.Model.UnpackedFloat

/-!
# Rounding to binary64

What the rounding functions of the `Float` model compute.  A number
`mantissa * 2 ^ exponent` rounds alike in all its representations that have
enough bits, and one that the format has is its own rounding.
-/

/-- The exponent that the format wants for the number. -/
def target (mantissa : Nat) (exponent : Int) : Int :=
  max (mantissa.log2 + 1 + exponent - 53) (-1074)

theorem targetExponent_eq (mantissa : Nat) (exponent : Int) :
    Format.binary64.targetExponent (totalExponent mantissa exponent) =
      target mantissa exponent :=
  rfl

theorem log2_shiftLeft {mantissa : Nat} (positive : mantissa ≠ 0) (places : Nat) :
    (mantissa <<< places).log2 = mantissa.log2 + places := by
  rw [Nat.shiftLeft_eq]
  induction places with
  | zero => simp
  | succ places inductionHypothesis =>
      have scaled : mantissa * 2 ^ places ≠ 0 :=
        Nat.mul_ne_zero positive (Nat.two_pow_pos places).ne'
      rw [pow_succ, ← mul_assoc, mul_comm _ 2, Nat.log2_two_mul scaled, inductionHypothesis]
      omega

theorem target_shiftLeft {mantissa : Nat} (positive : mantissa ≠ 0) (exponent : Int)
    (places : Nat) :
    target (mantissa <<< places) (exponent - places) = target mantissa exponent := by
  unfold target
  rw [log2_shiftLeft positive]
  omega

/-! ## Dropping bits -/

theorem repeat_inside {State : Type} (step : State → State) (times : Nat) (state : State) :
    Nat.repeat step times (step state) = step (Nat.repeat step times state) := by
  induction times with
  | zero => rfl
  | succ times inductionHypothesis => exact congrArg step inductionHypothesis

theorem shiftRightOne_double (mantissa : Nat) :
    ExtendedMantissa.shiftRightOne ⟨2 * mantissa, false, false⟩ = ⟨mantissa, false, false⟩ := by
  simp [ExtendedMantissa.shiftRightOne]

/-- Zeros that were put behind the mantissa are dropped first. -/
theorem shiftRight_shiftLeft (mantissa places more : Nat) :
    (ExtendedMantissa.mk (mantissa <<< more) false false) >>> (places + more) =
      (ExtendedMantissa.mk mantissa false false) >>> places := by
  induction more with
  | zero => simp
  | succ more inductionHypothesis =>
      change Nat.repeat ExtendedMantissa.shiftRightOne (places + more + 1) _ = _
      have first := repeat_inside ExtendedMantissa.shiftRightOne (places + more)
        ⟨mantissa <<< (more + 1), false, false⟩
      rw [Nat.repeat, ← first]
      have doubled : mantissa <<< (more + 1) = 2 * (mantissa <<< more) := by
        simp only [Nat.shiftLeft_eq, pow_succ]
        ring
      rw [doubled, shiftRightOne_double]
      exact inductionHypothesis

theorem shiftRight_mantissa (extended : ExtendedMantissa) (places : Nat) :
    (extended >>> places).mantissa = extended.mantissa / 2 ^ places := by
  induction places with
  | zero => simp [HShiftRight.hShiftRight, Nat.repeat]
  | succ places inductionHypothesis =>
      change (extended >>> places).mantissa / 2 = _
      rw [inductionHypothesis, Nat.div_div_eq_div_mul, pow_succ]

theorem roundedMantissa_bounds (extended : ExtendedMantissa) :
    extended.mantissa ≤ extended.roundedMantissa ∧
      extended.roundedMantissa ≤ extended.mantissa + 1 := by
  obtain ⟨mantissa, roundBit, stickyBit⟩ := extended
  cases roundBit <;> cases stickyBit <;>
    simp [ExtendedMantissa.roundedMantissa, ExtendedMantissa.accuracy,
      Accuracy.roundToNearestEven]
  omega

/-! ## Rounding -/

/-- `mantissa * 2 ^ exponent`, rounded. -/
def rounded (mantissa : Nat) (exponent : Int) : Float.Model.UnpackedFloat :=
  Float.Model.UnpackedFloat.round Format.binary64 .positive mantissa exponent

/-- The zeros behind the mantissa do not matter, if there are enough of them. -/
theorem roundWithAccuracy_shiftLeft
    {mantissa places : Nat}
    {exponent : Int}
    (positive : mantissa ≠ 0)
    (enough : exponent - places ≤ target mantissa exponent) :
    roundWithAccuracy Format.binary64 .positive (mantissa <<< places) (exponent - places) .exact =
      rounded mantissa exponent := by
  -- how many zeros `round` puts there, and what is dropped of them
  generalize least : (exponent - target mantissa exponent).toNat = zeros
  have own :
      shiftToTargetExponent Format.binary64 (mantissa <<< zeros) (exponent - zeros) .exact =
        shiftToTargetExponent Format.binary64 (mantissa <<< places) (exponent - places)
          .exact := by
    simp only [shiftToTargetExponent, targetExponent_eq, target_shiftLeft positive,
      shiftToExponent, ExtendedMantissa.ofMantissaAndAccuracy]
    obtain ⟨more, rfl⟩ : ∃ more, places = zeros + more := ⟨places - zeros, by omega⟩
    have dropped :
        (target mantissa exponent - (exponent - (zeros + more : Nat))).toNat =
          (target mantissa exponent - (exponent - zeros)).toNat + more := by omega
    rw [dropped, Nat.shiftLeft_add, shiftRight_shiftLeft]
    refine Prod.ext rfl ?_
    simp only
    omega
  unfold rounded Float.Model.UnpackedFloat.round
  simp only [decreaseExponent, targetExponent_eq, least]
  unfold roundWithAccuracy
  rw [own]

theorem rounded_shiftLeft {mantissa : Nat} (positive : mantissa ≠ 0) (exponent : Int)
    (places : Nat) :
    rounded (mantissa <<< places) (exponent - places) = rounded mantissa exponent := by
  obtain ⟨more, enough⟩ :
      ∃ more : Nat, exponent - (places + more : Nat) ≤ target mantissa exponent :=
    ⟨(exponent - target mantissa exponent).toNat, by omega⟩
  have apart : exponent - (places + more : Nat) = exponent - places - (more : Nat) := by omega
  have shifted : mantissa <<< places ≠ 0 := by
    rw [Nat.shiftLeft_eq]
    exact Nat.mul_ne_zero positive (Nat.two_pow_pos places).ne'
  have inner :
      exponent - places - (more : Nat) ≤ target (mantissa <<< places) (exponent - places) := by
    rw [target_shiftLeft positive]
    omega
  rw [← roundWithAccuracy_shiftLeft positive enough, ← roundWithAccuracy_shiftLeft shifted inner,
    ← Nat.shiftLeft_add, apart]

/-- A number as the format has it: the leading bit may be missing at the least exponent. -/
structure Canonical (mantissa : Nat) (exponent : Int) : Prop where
  positive : mantissa ≠ 0
  short : mantissa < 2 ^ 53
  above : -1074 ≤ exponent
  full : 2 ^ 52 ≤ mantissa ∨ exponent = -1074

theorem Canonical.log2_le {mantissa : Nat} {exponent : Int}
    (canonical : Canonical mantissa exponent) : mantissa.log2 ≤ 52 := by
  have below := (Nat.log2_lt canonical.positive).mpr canonical.short
  omega

theorem Canonical.target_eq {mantissa : Nat} {exponent : Int}
    (canonical : Canonical mantissa exponent) : target mantissa exponent = exponent := by
  have short := canonical.log2_le
  have above := canonical.above
  unfold target
  rcases canonical.full with leading | least
  · have full := (Nat.le_log2 canonical.positive).mpr leading
    omega
  · omega

theorem Canonical.shift {mantissa : Nat} {exponent : Int}
    (canonical : Canonical mantissa exponent) :
    shiftToTargetExponent Format.binary64 mantissa exponent .exact =
      (⟨mantissa, false, false⟩, exponent) := by
  simp only [shiftToTargetExponent, targetExponent_eq, canonical.target_eq, shiftToExponent,
    sub_self]
  simp [ExtendedMantissa.ofMantissaAndAccuracy, HShiftRight.hShiftRight, Nat.repeat]

theorem Canonical.rounded {mantissa : Nat} {exponent : Int}
    (canonical : Canonical mantissa exponent) :
    rounded mantissa exponent =
      .finite .positive mantissa exponent (Nat.pos_of_ne_zero canonical.positive) := by
  unfold BinaryRounding.rounded Float.Model.UnpackedFloat.round
  simp only [decreaseExponent, targetExponent_eq, canonical.target_eq, sub_self, Int.toNat_zero,
    Nat.shiftLeft_zero, Nat.cast_zero, sub_zero]
  unfold roundWithAccuracy
  simp only [canonical.shift, ExtendedMantissa.roundedMantissa, ExtendedMantissa.accuracy,
    Accuracy.roundToNearestEven, canonical.positive, dite_false]

/-- A carry out of the mantissa leaves a one with zeros behind it. -/
theorem shift_carry {exponent : Int} (above : -1074 ≤ exponent) :
    shiftToTargetExponent Format.binary64 (2 ^ 53) exponent .exact =
      (⟨2 ^ 52, false, false⟩, exponent + 1) := by
  have wanted : target (2 ^ 53) exponent = exponent + 1 := by
    unfold target
    rw [Nat.log2_two_pow]
    omega
  simp only [shiftToTargetExponent, targetExponent_eq, wanted, shiftToExponent]
  have one : (exponent + 1 - exponent).toNat = 1 := by omega
  rw [one]
  rfl

/-- The number's own exponent, or the next one. -/
structure RoundsTo (number mantissa : Nat) (exponent : Int) : Prop where
  canonical : Canonical mantissa exponent
  leading : 2 ^ 52 ≤ mantissa
  near : exponent = number.log2 - 52 ∨ exponent = number.log2 - 51 ∧ mantissa = 2 ^ 52

theorem rounded_whole {number : Nat} (positive : number ≠ 0) :
    ∃ mantissa exponent, RoundsTo number mantissa exponent ∧
      rounded number 0 = rounded mantissa exponent := by
  have enough : (0 : Int) - (53 : Nat) ≤ target number 0 := by
    unfold target
    omega
  have wanted : target (number <<< 53) (0 - (53 : Nat)) = number.log2 - 52 := by
    rw [target_shiftLeft positive]
    unfold target
    omega
  have amount : ((number.log2 : Int) - 52 - (0 - (53 : Nat))).toNat = number.log2 + 1 := by omega
  generalize extended :
    (ExtendedMantissa.mk (number <<< 53) false false) >>> (number.log2 + 1) = cut
  have first :
      shiftToTargetExponent Format.binary64 (number <<< 53) (0 - (53 : Nat)) .exact =
        (cut, (number.log2 : Int) - 52) := by
    simp only [shiftToTargetExponent, targetExponent_eq, wanted, shiftToExponent, amount,
      ExtendedMantissa.ofMantissaAndAccuracy, extended]
    refine Prod.ext rfl ?_
    dsimp only
    omega
  -- the bits that are kept start with the leading one
  have kept : cut.mantissa = number * 2 ^ 53 / 2 ^ (number.log2 + 1) := by
    rw [← extended, shiftRight_mantissa, Nat.shiftLeft_eq]
  have full : 2 ^ 52 ≤ cut.mantissa := by
    rw [kept, Nat.le_div_iff_mul_le (Nat.two_pow_pos _)]
    calc 2 ^ 52 * 2 ^ (number.log2 + 1)
        = 2 ^ number.log2 * 2 ^ 53 := by ring
      _ ≤ number * 2 ^ 53 := Nat.mul_le_mul_right _ (Nat.log2_self_le positive)
  have short : cut.mantissa < 2 ^ 53 := by
    rw [kept, Nat.div_lt_iff_lt_mul (Nat.two_pow_pos _), mul_comm]
    exact Nat.mul_lt_mul_of_pos_left Nat.lt_log2_self (Nat.two_pow_pos _)
  have above : (-1074 : Int) ≤ number.log2 - 52 := by omega
  obtain ⟨low, high⟩ := roundedMantissa_bounds cut
  rw [← roundWithAccuracy_shiftLeft positive enough]
  unfold roundWithAccuracy
  rw [first]
  by_cases carry : cut.roundedMantissa = 2 ^ 53
  · have canonical : Canonical (2 ^ 52) ((number.log2 : Int) - 51) := by
      constructor <;> omega
    refine ⟨2 ^ 52, number.log2 - 51, ⟨canonical, le_rfl, .inr ⟨rfl, rfl⟩⟩, ?_⟩
    have next : (number.log2 : Int) - 52 + 1 = number.log2 - 51 := by omega
    dsimp only
    rw [carry, shift_carry above, canonical.rounded, next]
    rfl
  · have canonical : Canonical cut.roundedMantissa ((number.log2 : Int) - 52) := by
      constructor <;> omega
    refine ⟨cut.roundedMantissa, number.log2 - 52, ⟨canonical, by omega, .inl rfl⟩, ?_⟩
    dsimp only
    rw [canonical.shift, canonical.rounded]
    simp only [canonical.positive, dite_false]

/-! ## The bits -/

/-- Where the bits of a canonical number lie on the line of all bits. -/
def place (mantissa : Nat) (exponent : Int) : Nat :=
  if mantissa < 2 ^ 52 then mantissa
  else (exponent + 1075).toNat * 2 ^ 52 + (mantissa - 2 ^ 52)

def bits (unpacked : Float.Model.UnpackedFloat) : UInt64 := (Float.Model.pack unpacked).toBits

theorem packComponents_toNat (exponent : BitVec 11) (mantissa : BitVec 52) :
    (packComponents Format.binary64 .positive exponent mantissa).toNat =
      exponent.toNat * 2 ^ 52 + mantissa.toNat := by
  unfold packComponents
  have small : mantissa.toNat < 2 ^ 52 := mantissa.isLt
  rw [BitVec.toNat_append, BitVec.toNat_append]
  simp only [Sign.toBitVec, BitVec.toNat_ofNat, Nat.zero_mod, Nat.zero_shiftLeft, Nat.zero_or]
  rw [← Nat.shiftLeft_add_eq_or_of_lt small, Nat.shiftLeft_eq]

theorem pack_finite {mantissa : Nat} (exponent : Int) (positive : 0 < mantissa) :
    pack Format.binary64 (.finite .positive mantissa exponent positive) =
      if 2048 ≤ (exponent + 1075).toNat + 1 then packedInfinity Format.binary64 .positive
      else if mantissa.log2 + 1 = 53 then
        packComponents Format.binary64 .positive (BitVec.ofNat 11 (exponent + 1075).toNat)
          (BitVec.ofNat 52 mantissa)
      else packComponents Format.binary64 .positive 0#11 (BitVec.ofNat 52 mantissa) := by
  have biased :
      exponent + (Format.binary64.exponentBias : Int) +
        (Format.binary64.mantissaBitsWithoutImplicit : Int) = exponent + 1075 := by
    have bias : (Format.binary64.exponentBias : Int) = 1023 := rfl
    have width : (Format.binary64.mantissaBitsWithoutImplicit : Int) = 52 := rfl
    omega
  unfold pack
  simp only [biased]
  rfl

/-- Beyond the largest exponent there is only infinity. -/
theorem Canonical.pack_toNat {mantissa : Nat} {exponent : Int}
    (canonical : Canonical mantissa exponent) :
    (bits (BinaryRounding.rounded mantissa exponent)).toNat =
      if exponent ≤ 971 then place mantissa exponent else 2047 * 2 ^ 52 := by
  have above := canonical.above
  have short := canonical.short
  rw [canonical.rounded]
  change (pack Format.binary64 (.finite .positive mantissa exponent
    (Nat.pos_of_ne_zero canonical.positive))).toNat = _
  rw [pack_finite]
  split
  case isTrue huge =>
    have high : ¬ exponent ≤ 971 := by omega
    rw [if_neg high]
    rfl
  case isFalse fits =>
    have low : exponent ≤ 971 := by omega
    rw [if_pos low]
    unfold place
    split
    case isTrue normal =>
      have leading : ¬ mantissa < 2 ^ 52 := by
        intro small
        have below := (Nat.log2_lt canonical.positive).mpr small
        omega
      rw [if_neg leading, packComponents_toNat]
      simp only [BitVec.toNat_ofNat]
      omega
    case isFalse subnormal =>
      have leading : mantissa < 2 ^ 52 := by
        refine Nat.lt_of_not_le fun full => subnormal ?_
        have highest := (Nat.le_log2 canonical.positive).mpr full
        have short := canonical.log2_le
        omega
      rw [if_pos leading, packComponents_toNat]
      simp only [BitVec.toNat_ofNat]
      omega

/-! ## Decimal numbers -/

/-- The real nearest to `number / 10 ^ places`. -/
def nearest (number places : Nat) : UInt64 :=
  (Float.Model.ofScientific number (-(places : Int))).toBits

theorem nearest_zero (places : Nat) : nearest 0 places = 0 := by
  unfold nearest Float.Model.ofScientific ofScientific
  rfl

theorem log2_mul_bounds {left right : Nat} (leftPositive : left ≠ 0) (rightPositive : right ≠ 0) :
    left.log2 + right.log2 ≤ (left * right).log2 ∧
      (left * right).log2 ≤ left.log2 + right.log2 + 1 := by
  have product : left * right ≠ 0 := Nat.mul_ne_zero leftPositive rightPositive
  constructor
  · rw [Nat.le_log2 product, pow_add]
    exact Nat.mul_le_mul (Nat.log2_self_le leftPositive) (Nat.log2_self_le rightPositive)
  · have below : (left * right).log2 < left.log2 + 1 + (right.log2 + 1) := by
      rw [Nat.log2_lt product, pow_add]
      exact Nat.mul_lt_mul'' Nat.lt_log2_self Nat.lt_log2_self
    omega

theorem div_exact
    {number divisor mantissa places : Nat}
    (numberPositive : 0 < number)
    (divisorPositive : 0 < divisor)
    (same : number * 2 ^ places = mantissa * divisor)
    (fits : places = 0 ∨ mantissa < 2 ^ 53 ∧ places ≤ 1074) :
    div Format.binary64 (.finite .positive number 0 numberPositive)
        (.finite .positive divisor 0 divisorPositive) =
      rounded mantissa (-places) := by
  have positive : mantissa ≠ 0 := by
    rintro rfl
    have scaled := Nat.mul_pos numberPositive (Nat.two_pow_pos places)
    omega
  -- the estimate of the exponent is at most one too high
  have estimate : number.log2 + places ≤ mantissa.log2 + divisor.log2 + 1 := by
    have bound := (log2_mul_bounds positive divisorPositive.ne').2
    rw [← same, ← Nat.shiftLeft_eq, log2_shiftLeft numberPositive.ne'] at bound
    exact bound
  have bits : places = 0 ∨ mantissa.log2 ≤ 52 ∧ places ≤ 1074 := by
    refine fits.imp_right fun short => ⟨?_, short.2⟩
    have below := (Nat.log2_lt positive).mpr short.1
    omega
  obtain ⟨shift, shifted⟩ : ∃ shift : Nat,
      min 0 (max ((number.log2 : Int) - divisor.log2 - 53) (-1074)) = -(shift : Int) :=
    ⟨(-min 0 (max ((number.log2 : Int) - divisor.log2 - 53) (-1074))).toNat, by omega⟩
  have wanted :
      min (0 - 0)
          (Format.binary64.targetExponent (totalExponent number 0 - totalExponent divisor 0)) =
        -(shift : Int) := by
    rw [← shifted]
    unfold Format.targetExponent totalExponent
    have width : (Format.binary64.mantissaBits : Int) = 53 := rfl
    have least : Format.binary64.minExponent = -1074 := rfl
    rw [width, least]
    omega
  obtain ⟨more, rfl⟩ : ∃ more, shift = places + more := ⟨shift - places, by omega⟩
  have scaled : number <<< (places + more) = divisor * mantissa <<< more := by
    rw [Nat.shiftLeft_eq, Nat.shiftLeft_eq, pow_add, ← mul_assoc, same]
    ring
  have amount : ((0 : Int) - 0 - -((places + more : Nat) : Int)).toNat = places + more := by omega
  have core :
      divCore Format.binary64 number 0 divisor 0 =
        (mantissa <<< more, -((places + more : Nat) : Int), .exact) := by
    unfold divCore
    dsimp only
    rw [wanted, amount, scaled, Nat.mul_div_cancel_left _ divisorPositive, Nat.mul_mod_right]
    rfl
  have apart : -((places + more : Nat) : Int) = -(places : Int) - (more : Nat) := by omega
  have enough : -(places : Int) - (more : Nat) ≤ target mantissa (-places) := by
    unfold target
    omega
  unfold div
  dsimp only
  rw [core, apart]
  exact roundWithAccuracy_shiftLeft positive enough

theorem scientific_nonpositive
    {number : Nat}
    (positive : 0 < number)
    (places : Nat)
    (few : places ≤ 2048) :
    ofScientific Format.binary64 number (-(places : Int)) =
      if places = 0 then rounded number 0
      else
        div Format.binary64 (.finite .positive number 0 positive)
          (.finite .positive (10 ^ places) 0 (Nat.pow_pos (by decide))) := by
  unfold ofScientific
  have notLarge : ¬ (-(places : Int) > 2 ^ Format.binary64.exponentBits) := by
    have power : (2 : Int) ^ Format.binary64.exponentBits = 2048 := rfl
    omega
  have notSmall :
      ¬ (-(places : Int) < -((2 ^ Format.binary64.exponentBits : Int) + number.log2)) := by
    have power : (2 : Int) ^ Format.binary64.exponentBits = 2048 := rfl
    omega
  rw [dif_neg positive.ne', if_neg notLarge, if_neg notSmall]
  split
  case isTrue none =>
    obtain rfl : places = 0 := by omega
    rw [if_pos rfl]
    have enough : (0 : Int) - (53 : Nat) ≤ target number 0 := by
      unfold target
      omega
    rw [← roundWithAccuracy_shiftLeft positive.ne' enough]
    unfold mul
    simp only [Nat.cast_zero, neg_zero, Int.toNat_zero, pow_zero, mul_one, add_zero, zero_sub]
    rfl
  case isFalse some =>
    have apart : places ≠ 0 := by omega
    simp only [neg_neg, Int.toNat_natCast, apart, if_false]

theorem nearest_whole {number : Nat} (positive : number ≠ 0) :
    nearest number 0 = bits (rounded number 0) := by
  have scientific := scientific_nonpositive (Nat.pos_of_ne_zero positive) 0 (by omega)
  rw [if_pos rfl] at scientific
  exact congrArg bits scientific

/-- Whole numbers and their powers of two keep their order. -/
theorem nearest_bounds {number : Nat} (positive : number ≠ 0) :
    min ((number.log2 + 1023) * 2 ^ 52) (2047 * 2 ^ 52) ≤ (nearest number 0).toNat ∧
      (nearest number 0).toNat ≤ (number.log2 + 1024) * 2 ^ 52 := by
  obtain ⟨mantissa, exponent, found, same⟩ := rounded_whole positive
  have short := found.canonical.short
  have leading := found.leading
  have near := found.near
  rw [nearest_whole positive, same, found.canonical.pack_toNat]
  unfold place
  rw [if_neg (Nat.not_lt.mpr leading)]
  split <;> omega

/-- A decimal number that is a short binary one is read as that. -/
theorem nearest_exact
    {number places mantissa exponent : Nat}
    (positive : number ≠ 0)
    (same : number * 2 ^ exponent = mantissa * 10 ^ places)
    (few : places ≤ 2048)
    (some : places ≠ 0)
    (fits : exponent = 0 ∨ mantissa < 2 ^ 53 ∧ exponent ≤ 1074) :
    nearest number places = bits (rounded mantissa (-exponent)) := by
  have scientific := scientific_nonpositive (Nat.pos_of_ne_zero positive) places few
  rw [if_neg some, div_exact (Nat.pos_of_ne_zero positive) _ same fits] at scientific
  exact congrArg bits scientific

/-- A zero behind the point changes nothing. -/
theorem nearest_tenfold (number : Nat) : nearest (10 * number) 1 = nearest number 0 := by
  by_cases none : number = 0
  · rw [none, mul_zero, nearest_zero, nearest_zero]
  · rw [nearest_whole none]
    have same : 10 * number * 2 ^ 0 = number * 10 ^ 1 := by ring
    have read := nearest_exact (by omega) same (by omega) (by omega) (.inl rfl)
    rw [read, Nat.cast_zero, neg_zero]

theorem toFloat_toBits (number : UInt64) :
    number.toFloat.toBits = nearest number.toNat 0 := by
  change bits
    (Float.Model.UnpackedFloat.normalize Format.binary64 (number.toNat : Int) 0 .positive) = _
  unfold Float.Model.UnpackedFloat.normalize
  by_cases none : number.toNat = 0
  · rw [none, nearest_zero]
    rfl
  · have above : compare (number.toNat : Int) 0 = .gt := by
      rw [Int.compare_eq_gt]
      omega
    rw [above, nearest_whole none]
    rfl

end PrehniteDB.BinaryRounding
