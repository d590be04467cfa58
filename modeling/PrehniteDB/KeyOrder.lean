import PrehniteDB.Expressions

namespace PrehniteDB

open ReadPaths (ColumnType)

/-!
# Byte order stands in for comparison

Of two values of one type the smaller has the smaller encoding, whatever
follows it.  Only the zeros of a `REAL` compare equal under two encodings.
-/

/-! ## Big-endian numbers -/

/-- The low `width` bytes, the most significant first. -/
def bigEndianBytes (number : Nat) : Nat → List UInt8
  | 0 => []
  | width + 1 => LittleEndian.byte number width :: bigEndianBytes number width

theorem bigEndian_eq (number : UInt64) :
    bigEndian number = bigEndianBytes number.toNat 8 :=
  rfl

theorem bigEndianBytes_lt
    {left right : Nat}
    (width : Nat)
    (below : left % 256 ^ width < right % 256 ^ width)
    (leftRest rightRest : List UInt8) :
    bigEndianBytes left width ++ leftRest < bigEndianBytes right width ++ rightRest := by
  induction width with
  | zero => simp [Nat.mod_one] at below
  | succ width inductionHypothesis =>
      rw [Nat.pow_succ, Nat.mod_mul, Nat.mod_mul] at below
      have leftLow : left % 256 ^ width < 256 ^ width := Nat.mod_lt _ (Nat.pow_pos (by decide))
      have rightLow : right % 256 ^ width < 256 ^ width := Nat.mod_lt _ (Nat.pow_pos (by decide))
      rw [bigEndianBytes, bigEndianBytes, List.cons_append, List.cons_append,
        List.cons_lt_cons_iff, UInt8.lt_iff_toNat_lt, ← UInt8.toNat_inj,
        LittleEndian.byte_toNat, LittleEndian.byte_toNat]
      rcases Nat.lt_trichotomy (left / 256 ^ width % 256) (right / 256 ^ width % 256) with
        lower | same | higher
      · exact Or.inl lower
      · refine Or.inr ⟨same, inductionHypothesis ?_⟩
        rw [same] at below
        omega
      · have scaled :
            256 ^ width * (right / 256 ^ width % 256) + 256 ^ width ≤
              256 ^ width * (left / 256 ^ width % 256) := by
          rw [← Nat.mul_succ]
          exact Nat.mul_le_mul_left _ higher
        omega

theorem bigEndian_lt
    {left right : UInt64}
    (below : left < right)
    (leftRest rightRest : List UInt8) :
    bigEndian left ++ leftRest < bigEndian right ++ rightRest := by
  rw [bigEndian_eq, bigEndian_eq]
  refine bigEndianBytes_lt 8 ?_ leftRest rightRest
  have leftFits : left.toNat < 256 ^ 8 := left.toNat_lt
  have rightFits : right.toNat < 256 ^ 8 := right.toNat_lt
  rw [Nat.mod_eq_of_lt leftFits, Nat.mod_eq_of_lt rightFits]
  exact UInt64.lt_iff_toNat_lt.mp below

/-! ## The sign bit -/

/-- A number of 64 bits as its sign bit and the rest. -/
structure SignSplit (bits : UInt64) (sign : Bool) (magnitude : Nat) : Prop where
  bound : magnitude < 2 ^ 63
  whole : bits.toNat = (if sign then 2 ^ 63 else 0) + magnitude

theorem signSplit (bits : UInt64) :
    ∃ sign magnitude, SignSplit bits sign magnitude := by
  have fits := bits.toNat_lt
  by_cases large : 2 ^ 63 ≤ bits.toNat
  · exact ⟨true, bits.toNat - 2 ^ 63, by omega, by simp; omega⟩
  · exact ⟨false, bits.toNat, by omega, by simp⟩

namespace SignSplit

variable {bits : UInt64} {sign : Bool} {magnitude : Nat}

theorem low (split : SignSplit bits sign magnitude) :
    (bits &&& 0x7FFFFFFFFFFFFFFF).toNat = magnitude := by
  rw [UInt64.toNat_and]
  have mask : (0x7FFFFFFFFFFFFFFF : UInt64).toNat = 2 ^ 63 - 1 := rfl
  rw [mask, Nat.and_two_pow_sub_one_eq_mod, split.whole]
  have bound := split.bound
  cases sign <;> simp <;> omega

theorem signBit_disjoint (bound : magnitude < 2 ^ 63) :
    2 ^ 63 + magnitude = 2 ^ 63 ^^^ magnitude := by
  have joined := Nat.two_pow_add_eq_or_of_lt bound 1
  rw [Nat.mul_one] at joined
  rw [joined]
  refine Nat.eq_of_testBit_eq fun position => ?_
  rw [Nat.testBit_or, Nat.testBit_xor, Nat.testBit_two_pow]
  by_cases top : 63 = position
  · rw [← top, Nat.testBit_lt_two_pow bound]
    simp
  · simp [top]

/-- The top bit is set exactly when the sign is. -/
theorem sign_ne_zero (split : SignSplit bits sign magnitude) :
    bits &&& 0x8000000000000000 ≠ 0 ↔ sign = true := by
  have bound := split.bound
  have top : bits &&& 0x8000000000000000 ≠ 0 ↔ bits.toNat.testBit 63 = true := by
    have bit := sign_iff bits.toBitVec
    rw [← UInt64.toBitVec_inj.ne]
    exact bit
  rw [top, split.whole]
  cases sign with
  | true =>
      simp only [if_true, iff_true]
      rw [signBit_disjoint bound, Nat.testBit_xor, Nat.testBit_lt_two_pow bound,
        Nat.testBit_two_pow_self]
      rfl
  | false =>
      simp only [Bool.false_eq_true, if_false, Nat.zero_add, iff_false]
      rw [Nat.testBit_lt_two_pow bound]
      exact Bool.false_ne_true

theorem xor_sign (split : SignSplit bits sign magnitude) :
    (bits ^^^ 0x8000000000000000).toNat =
      (if sign then 0 else 2 ^ 63) + magnitude := by
  have mask : (0x8000000000000000 : UInt64).toNat = 2 ^ 63 := rfl
  rw [UInt64.toNat_xor, split.whole, mask]
  cases sign with
  | true =>
      simp only [if_true]
      rw [signBit_disjoint split.bound, Nat.xor_comm (2 ^ 63), Nat.xor_assoc, Nat.xor_self]
      simp
  | false =>
      simp only [Bool.false_eq_true, if_false, Nat.zero_add]
      rw [signBit_disjoint split.bound, Nat.xor_comm]

theorem orderedBits (split : SignSplit bits sign magnitude) :
    (orderedBits bits).toNat =
      if sign then 2 ^ 63 - 1 - magnitude else 2 ^ 63 + magnitude := by
  have bound := split.bound
  unfold PrehniteDB.orderedBits
  cases sign with
  | true =>
      rw [if_pos (split.sign_ne_zero.mpr rfl), UInt64.toNat_not, split.whole]
      simp only [if_true]
      have size : UInt64.size = 2 ^ 64 := rfl
      omega
  | false =>
      have clear : ¬ bits &&& 0x8000000000000000 ≠ 0 := fun set =>
        Bool.false_ne_true (split.sign_ne_zero.mp set)
      have mask : (0x8000000000000000 : UInt64).toNat = 2 ^ 63 := rfl
      have joined := Nat.two_pow_add_eq_or_of_lt bound 1
      rw [if_neg clear, UInt64.toNat_or, split.whole, mask]
      simp only [Bool.false_eq_true, if_false, Nat.zero_add]
      rw [Nat.or_comm, ← Nat.mul_one (2 ^ 63), ← joined]

theorem place (split : SignSplit bits sign magnitude) :
    realPlace bits = if sign then -(magnitude : Int) else magnitude := by
  unfold realPlace
  rw [split.low]
  cases sign with
  | true => rw [if_pos (split.sign_ne_zero.mpr rfl), if_pos rfl]
  | false =>
      have clear : ¬ bits &&& 0x8000000000000000 ≠ 0 := fun set =>
        Bool.false_ne_true (split.sign_ne_zero.mp set)
      rw [if_neg clear, if_neg Bool.false_ne_true]

theorem toInt
    {number : Int64}
    (split : SignSplit number.toUInt64 sign magnitude) :
    number.toInt = (if sign then -(2 ^ 63) else 0) + magnitude := by
  have bound := split.bound
  have whole := split.whole
  have value : number.toInt = number.toUInt64.toBitVec.toInt := rfl
  rw [value, BitVec.toInt_eq_toNat_cond]
  have natural : number.toUInt64.toBitVec.toNat = number.toUInt64.toNat := rfl
  rw [natural, whole]
  cases sign <;> simp <;> omega

end SignSplit

/-! ## Values of one type -/

theorem escapeText_lt
    {left right : List UInt8}
    (below : left < right)
    (leftRest rightRest : List UInt8) :
    escapeText left ++ leftRest < escapeText right ++ rightRest := by
  induction left generalizing right with
  | nil =>
      cases right with
      | nil => exact absurd below (List.not_lt_nil _)
      | cons byte rest =>
          by_cases zero : byte = 0
          · simp [escapeText, zero, List.cons_lt_cons_iff]
          · have positive : 0 < byte := UInt8.pos_iff_ne_zero.mpr zero
            simp [escapeText, zero, List.cons_lt_cons_iff, positive]
  | cons byte rest inductionHypothesis =>
      cases right with
      | nil => exact absurd below (List.not_lt_nil _)
      | cons head tail =>
          rcases List.cons_lt_cons_iff.mp below with smaller | ⟨rfl, deeper⟩
          · have headPositive : head ≠ 0 := fun zero =>
              UInt8.not_lt_zero (zero ▸ smaller)
            by_cases zero : byte = 0
            · have positive : 0 < head := UInt8.pos_iff_ne_zero.mpr headPositive
              simp [escapeText, zero, headPositive, List.cons_lt_cons_iff, positive]
            · simp [escapeText, zero, headPositive, List.cons_lt_cons_iff, smaller]
          · have further := inductionHypothesis deeper
            by_cases zero : byte = 0
            · simpa [escapeText, zero, List.cons_lt_cons_iff] using further
            · simpa [escapeText, zero, List.cons_lt_cons_iff] using further

theorem sign_flip_lt
    {left right : Int64}
    (below : left.toInt < right.toInt) :
    left.toUInt64 ^^^ 0x8000000000000000 < right.toUInt64 ^^^ 0x8000000000000000 := by
  obtain ⟨leftSign, leftMagnitude, leftSplit⟩ := signSplit left.toUInt64
  obtain ⟨rightSign, rightMagnitude, rightSplit⟩ := signSplit right.toUInt64
  have leftBound := leftSplit.bound
  have rightBound := rightSplit.bound
  rw [leftSplit.toInt, rightSplit.toInt] at below
  rw [UInt64.lt_iff_toNat_lt, leftSplit.xor_sign, rightSplit.xor_sign]
  cases leftSign <;> cases rightSign <;> simp at below ⊢ <;> omega

theorem orderedBits_lt
    {left right : UInt64}
    (below : realPlace left < realPlace right) :
    orderedBits left < orderedBits right := by
  obtain ⟨leftSign, leftMagnitude, leftSplit⟩ := signSplit left
  obtain ⟨rightSign, rightMagnitude, rightSplit⟩ := signSplit right
  have leftBound := leftSplit.bound
  have rightBound := rightSplit.bound
  rw [leftSplit.place, rightSplit.place] at below
  rw [UInt64.lt_iff_toNat_lt, leftSplit.orderedBits, rightSplit.orderedBits]
  cases leftSign <;> cases rightSign <;> simp at below ⊢ <;> omega

/-- Two numbers share a place when they are one number or the two zeros. -/
theorem realPlace_eq
    {left right : UInt64}
    (same : realPlace left = realPlace right) :
    left = right ∨ realIsZero left = true ∧ realIsZero right = true := by
  obtain ⟨leftSign, leftMagnitude, leftSplit⟩ := signSplit left
  obtain ⟨rightSign, rightMagnitude, rightSplit⟩ := signSplit right
  have leftBound := leftSplit.bound
  have rightBound := rightSplit.bound
  have leftLow := leftSplit.low
  have rightLow := rightSplit.low
  rw [leftSplit.place, rightSplit.place] at same
  by_cases signs : leftSign = rightSign
  · subst signs
    refine Or.inl (UInt64.toNat_inj.mp ?_)
    rw [leftSplit.whole, rightSplit.whole]
    cases leftSign <;> simp at same ⊢ <;> omega
  · have zeros : leftMagnitude = 0 ∧ rightMagnitude = 0 := by
      cases leftSign <;> cases rightSign <;> simp at same signs <;> omega
    rw [zeros.1] at leftLow
    rw [zeros.2] at rightLow
    refine Or.inr ⟨decide_eq_true (UInt64.toNat_inj.mp leftLow),
      decide_eq_true (UInt64.toNat_inj.mp rightLow)⟩

/-- The value is `NULL` or of the type. -/
def Value.fits : ColumnType → Value → Bool
  | _, .null => true
  | .int, .int _ => true
  | .real, .real _ => true
  | .text, .text _ => true
  | .bool, .bool _ => true
  | _, _ => false

/-- The two zeros of a `REAL`. -/
def Value.Crossed : Value → Value → Prop
  | .real left, .real right =>
      realIsZero left = true ∧ realIsZero right = true ∧ left ≠ right
  | _, _ => False

namespace Value

variable {type : ColumnType} {left right : Value} {ordering : Ordering}

theorem compareWith_numbers
    {leftBits rightBits : UInt64}
    (leftNumber : left.asNumber = .ok leftBits)
    (rightNumber : right.asNumber = .ok rightBits)
    (mixed : ∀ first second, ¬ (left = .int first ∧ right = .int second)) :
    left.compareWith right =
      match realCompare leftBits rightBits with
      | some ordering => .ok ordering
      | none => .error (.exec "cannot compare NaN") := by
  cases left <;> cases right <;> simp [asNumber] at leftNumber rightNumber
  case int.int first second => exact absurd ⟨rfl, rfl⟩ (mixed first second)
  all_goals
    subst leftNumber rightNumber
    simp only [compareWith, isNumber, asNumber, Bool.and_self, if_true, bind, Except.bind]
    generalize realCompare _ _ = outcome
    cases outcome <;> rfl

theorem compareWith_real_ok
    {leftBits rightBits : UInt64}
    (compared : (Value.real leftBits).compareWith (.real rightBits) = .ok ordering) :
    compare (realPlace leftBits) (realPlace rightBits) = ordering := by
  rw [compareWith_numbers rfl rfl (by nofun)] at compared
  unfold realCompare at compared
  split at compared
  case h_1 found =>
    cases compared
    split at found
    case isTrue => cases found
    case isFalse => exact Option.some.inj found
  case h_2 => cases compared

theorem textCompare_lt
    {first second : String}
    (below : textCompare first second = .lt) :
    first.toUTF8.data.toList < second.toUTF8.data.toList := by
  simp only [textCompare] at below
  split at below
  case isTrue => cases below
  case isFalse =>
    split at below
    case isTrue smaller => exact smaller
    case isFalse => cases below

theorem textCompare_eq
    {first second : String}
    (same : textCompare first second = .eq) :
    first = second := by
  simp only [textCompare] at same
  split at same
  case isTrue bytes =>
    exact String.toByteArray_inj.mp (ByteArray.ext (Array.toList_inj.mp bytes))
  case isFalse =>
    split at same
    case isTrue => cases same
    case isFalse => cases same

theorem encode_lt
    (leftFits : left.fits type = true)
    (rightFits : right.fits type = true)
    (below : left.compareWith right = .ok .lt)
    (leftRest rightRest : List UInt8) :
    encodeIndexValue left ++ leftRest < encodeIndexValue right ++ rightRest := by
  cases type <;> cases left <;> cases right <;>
    simp only [fits, Bool.false_eq_true] at leftFits rightFits <;>
    try { simp [compareWith, isNumber] at below }
  case int.int.int first second =>
    have smaller : first.toInt < second.toInt := by
      simpa [compareWith, compare_lt_iff_lt] using below
    simp only [encodeIndexValue, List.cons_append, List.cons_lt_cons_iff]
    exact Or.inr ⟨trivial, bigEndian_lt (sign_flip_lt smaller) _ _⟩
  case real.real.real first second =>
    have smaller := compare_lt_iff_lt.mp (compareWith_real_ok below)
    simp only [encodeIndexValue, List.cons_append, List.cons_lt_cons_iff]
    exact Or.inr ⟨trivial, bigEndian_lt (orderedBits_lt smaller) _ _⟩
  case text.text.text first second =>
    have smaller : textCompare first second = .lt := by
      simpa [compareWith] using below
    simp only [encodeIndexValue, List.cons_append, List.cons_lt_cons_iff]
    exact Or.inr ⟨trivial, escapeText_lt (textCompare_lt smaller) _ _⟩
  case bool.bool.bool first second =>
    cases first <;> cases second <;>
      simp [compareWith, encodeIndexValue, List.cons_lt_cons_iff] at below ⊢

/-- Values of one type compare equal when they are one value or the two zeros. -/
theorem compareWith_eq
    (leftFits : left.fits type = true)
    (rightFits : right.fits type = true)
    (same : left.compareWith right = .ok .eq) :
    left = right ∨ left.Crossed right := by
  cases type <;> cases left <;> cases right <;>
    simp only [fits, Bool.false_eq_true] at leftFits rightFits <;>
    try { simp [compareWith, isNumber] at same }
  case int.int.int first second =>
    have numbers : first.toInt = second.toInt := by
      simpa [compareWith, compare_eq_iff_eq] using same
    exact Or.inl (congrArg _ (Int64.toInt_inj.mp numbers))
  case real.real.real first second =>
    have places := compare_eq_iff_eq.mp (compareWith_real_ok same)
    by_cases equal : first = second
    · exact Or.inl (congrArg _ equal)
    · rcases realPlace_eq places with bits | ⟨leftZero, rightZero⟩
      · exact absurd bits equal
      · exact Or.inr ⟨leftZero, rightZero, equal⟩
  case text.text.text first second =>
    have texts : textCompare first second = .eq := by
      simpa [compareWith] using same
    exact Or.inl (congrArg _ (textCompare_eq texts))
  case bool.bool.bool first second =>
    refine Or.inl ?_
    cases first <;> cases second <;> first | rfl | simp [compareWith] at same

theorem textCompare_swap (first second : String) :
    textCompare second first = (textCompare first second).swap := by
  unfold textCompare
  generalize first.toUTF8.data.toList = leftBytes
  generalize second.toUTF8.data.toList = rightBytes
  by_cases same : leftBytes = rightBytes
  · simp [same]
  · by_cases below : leftBytes < rightBytes
    · simp [same, Ne.symm same, below, List.lt_asymm below]
    · have above : rightBytes < leftBytes := by
        by_contra notAbove
        exact same (List.le_antisymm (List.not_lt.mp notAbove) (List.not_lt.mp below))
      simp [same, Ne.symm same, below, above]

theorem realCompare_swap (leftBits rightBits : UInt64) :
    realCompare rightBits leftBits = (realCompare leftBits rightBits).map Ordering.swap := by
  unfold realCompare
  rw [Bool.or_comm]
  split
  case isTrue => rfl
  case isFalse => exact congrArg some Std.OrientedCmp.eq_swap

/-- The comparison read from the other side. -/
theorem compareWith_swap
    (compared : left.compareWith right = .ok ordering) :
    right.compareWith left = .ok ordering.swap := by
  have numbers
      {leftBits rightBits : UInt64}
      (leftNumber : left.asNumber = .ok leftBits)
      (rightNumber : right.asNumber = .ok rightBits)
      (mixed : ∀ first second, ¬ (left = .int first ∧ right = .int second)) :
      right.compareWith left = .ok ordering.swap := by
    rw [compareWith_numbers leftNumber rightNumber mixed] at compared
    rw [compareWith_numbers rightNumber leftNumber fun first second both =>
      mixed second first both.symm, realCompare_swap]
    cases found : realCompare leftBits rightBits with
    | none => rw [found] at compared; cases compared
    | some order =>
        rw [found] at compared
        cases compared
        rfl
  cases left <;> cases right <;>
    try { simp [compareWith, isNumber] at compared }
  case int.int first second =>
    simp only [compareWith, Except.ok.injEq] at compared ⊢
    rw [← compared, ← Std.OrientedCmp.eq_swap]
  case bool.bool first second =>
    simp only [compareWith, Except.ok.injEq] at compared ⊢
    rw [← compared, ← Std.OrientedCmp.eq_swap]
  case text.text first second =>
    simp only [compareWith, Except.ok.injEq] at compared ⊢
    rw [← compared, textCompare_swap]
  all_goals exact numbers rfl rfl (by nofun)

end Value

end PrehniteDB
