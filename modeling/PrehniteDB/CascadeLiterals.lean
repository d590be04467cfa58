import PrehniteDB.CascadeTexts
import PrehniteDB.IndexAccess

namespace PrehniteDB.Sql

open BinaryRounding (nearest nearest_bounds nearest_zero)
open ReadPaths (ColumnType)

/-!
# Which rows a cascade acts on

What the literal in the statement of a cascade is evaluated to, and which rows
of the child its predicate picks, by the access path that is chosen for it.
-/

/-! ## Large numbers -/

/-- The bits of `2 ^ 63`. -/
def TWO_POW_63 : UInt64 := 0x43E0000000000000

theorem toNat_two_pow_63 : TWO_POW_63.toNat = 1086 * 2 ^ 52 := rfl

theorem shortest_whole {magnitude : UInt64} (large : TWO_POW_63 ≤ magnitude)
    (finite : magnitude < REAL_INFINITY) : (shortest magnitude).places = 0 := by
  have bound : 1086 * 2 ^ 52 ≤ magnitude.toNat := UInt64.le_iff_toNat_le.mp large
  have below : magnitude.toNat < 2047 * 2 ^ 52 := UInt64.lt_iff_toNat_lt.mp finite
  have noDigits : (-exponent magnitude).toNat = 0 := by
    unfold exponent
    omega
  have expansion := decimalAt_expansion below
  rw [noDigits] at expansion
  unfold shortest
  cases found : (List.range (wholeDigits magnitude + 1075)).findSome? fun step : Nat =>
      decimalAt magnitude ((step : Int) - wholeDigits magnitude) with
  | none => rfl
  | some decimal =>
      obtain ⟨before, step, after, split, reached, earlier⟩ := List.findSome?_eq_some_iff.mp found
      have sorted : (before ++ step :: after).Pairwise (· < ·) := split ▸ List.pairwise_lt_range
      have early : step ≤ wholeDigits magnitude := by
        by_contra late
        have listed : wholeDigits magnitude ∈ before ++ step :: after := by
          rw [← split, List.mem_range]
          omega
        have sides := List.pairwise_append.mp sorted
        rcases List.mem_append.mp listed with former | latter
        · have missing := earlier _ former
          rw [sub_self] at missing
          rw [Nat.cast_zero, missing] at expansion
          cases expansion
        · rcases List.mem_cons.mp latter with same | behind
          · omega
          · have above := (List.pairwise_cons.mp sides.2.1).1 _ behind
            omega
      have precision : ((step : Int) - wholeDigits magnitude).toNat = 0 := by omega
      have places : ∀ {precision : Int} {decimal : Decimal},
          decimalAt magnitude precision = some decimal → decimal.places = precision.toNat := by
        intro precision decimal found
        unfold decimalAt at found
        dsimp only at found
        split at found
        · obtain rfl := Option.some.inj found
          rfl
        · obtain ⟨-, same⟩ := Option.ite_none_right_eq_some.mp found
          obtain rfl := Option.some.inj same
          rfl
      exact (places reached).trans precision

/-- Digits without a point are read back as a whole number. -/
theorem nearest_shortest {magnitude : UInt64} (finite : magnitude < REAL_INFINITY)
    (whole : (shortest magnitude).places = 0) :
    nearest (shortest magnitude).number 0 = magnitude := by
  have read := shortest_bits (UInt64.lt_iff_toNat_lt.mp finite)
  unfold Decimal.bits at read
  rw [whole] at read
  exact read

theorem shortest_two_pow_63 : shortest TWO_POW_63 = ⟨9223372036854776000, 0⟩ := by
  decide +kernel

theorem largeMagnitude_iff {magnitude : UInt64} (number : magnitude ≤ REAL_INFINITY) :
    largeMagnitude magnitude ↔ TWO_POW_63 ≤ magnitude ∧ magnitude ≠ REAL_INFINITY := by
  constructor
  · rintro ⟨apart, whole, digits⟩
    refine ⟨UInt64.le_iff_toNat_le.mpr ?_, apart⟩
    have finite : magnitude < REAL_INFINITY := UInt64.lt_of_le_of_ne number apart
    have positive : (shortest magnitude).number ≠ 0 := by omega
    have bounds := (nearest_bounds positive).1
    have leading : 63 ≤ (shortest magnitude).number.log2 :=
      (Nat.le_log2 positive).mpr digits
    rw [nearest_shortest finite whole] at bounds
    rw [toNat_two_pow_63]
    omega
  · rintro ⟨large, apart⟩
    have finite : magnitude < REAL_INFINITY := UInt64.lt_of_le_of_ne number apart
    have whole := shortest_whole large finite
    refine ⟨apart, whole, ?_⟩
    rcases UInt64.lt_or_eq_of_le large with above | rfl
    · by_contra small
      have read := nearest_shortest finite whole
      have bound : 1086 * 2 ^ 52 < magnitude.toNat := UInt64.lt_iff_toNat_lt.mp above
      by_cases none : (shortest magnitude).number = 0
      · rw [none, nearest_zero] at read
        rw [← read] at bound
        exact absurd bound (by decide)
      · have bounds := (nearest_bounds none).2
        have leading : (shortest magnitude).number.log2 < 63 :=
          (Nat.log2_lt none).mpr (Nat.lt_of_not_le small)
        rw [read] at bounds
        omega
    · rw [shortest_two_pow_63]
      decide

theorem realOfInt_digits {magnitude : UInt64} (small : magnitude < TWO_POW_63)
    (whole : (shortest magnitude).places = 0) :
    (shortest magnitude).number < 2 ^ 63 ∧
      realOfInt (Int64.ofNat (shortest magnitude).number) = magnitude := by
  have finite : magnitude < REAL_INFINITY := UInt64.lt_trans small (by decide)
  have fits : (shortest magnitude).number < 2 ^ 63 := by
    by_contra large
    have listed : largeMagnitude magnitude :=
      ⟨UInt64.ne_of_lt finite, whole, Nat.le_of_not_lt large⟩
    have above := ((largeMagnitude_iff (UInt64.le_of_lt finite)).mp listed).1
    exact UInt64.not_le.mpr small above
  refine ⟨fits, ?_⟩
  have number := Int64.toInt_ofNat_of_lt fits
  have notNegative : ¬ Int64.ofNat (shortest magnitude).number < 0 := by
    rw [Int64.lt_iff_toInt_lt, number]
    exact Int.not_lt.mpr (Int.natCast_nonneg _)
  have size : UInt64.size = 2 ^ 64 := rfl
  have value : (UInt64.ofNat (shortest magnitude).number).toNat = (shortest magnitude).number :=
    UInt64.toNat_ofNat_of_lt' (by omega)
  unfold realOfInt
  dsimp only
  rw [number, if_neg notNegative, Int.natAbs_natCast, BinaryRounding.toFloat_toBits, value,
    nearest_shortest finite whole]

/-- The negated number is that of the bits with a sign. -/
theorem realOfInt_negative {number : Nat} (fits : number < 2 ^ 63) (some : number ≠ 0) :
    realOfInt (Int64.ofInt (-number)) = realNegate (realOfInt (Int64.ofNat number)) := by
  have positive := Int64.toInt_ofNat_of_lt fits
  have negative : (Int64.ofInt (-number)).toInt = -number :=
    Int64.toInt_ofInt_of_le (by omega) (by omega)
  have zero : (0 : Int64).toInt = 0 := rfl
  have below : Int64.ofInt (-number) < 0 := by
    rw [Int64.lt_iff_toInt_lt, negative, zero]
    omega
  have notBelow : ¬ Int64.ofNat number < 0 := by
    rw [Int64.lt_iff_toInt_lt, positive, zero]
    omega
  unfold realOfInt
  dsimp only
  rw [if_pos below, if_neg notBelow, negative, positive, Int.natAbs_neg]

/-! ## What the literal is evaluated to -/

/-- The values whose literal is read back: a `REAL` is finite, and below `2 ^ 63`. -/
def Representable : Value → Prop
  | .null => False
  | .int number => number ≠ Int64.minValue
  | .real bits => bits &&& 0x7FFFFFFFFFFFFFFF < TWO_POW_63
  | _ => True

/-- The literal starts with a minus. -/
def isSigned : Value → Bool
  | .int number => number < 0
  | .real bits => bits &&& 0x8000000000000000 ≠ 0
  | _ => false

open AccessPaths (coerce literalValue)

/-- What the literal of the value is to the planner and to the evaluator. -/
structure Constant (value : Value) (constant : PrehniteDB.Expr Statement) (parsed : Value) :
    Prop where
  made : (literalExpr value).evaluable = some constant
  evaluates : ∀ scope row, PrehniteDB.eval scope row constant = .ok parsed
  notNull : parsed.isNull = false
  literal : literalValue constant = if isSigned value then none else some parsed
  coerced : ∀ type, value.fits type = true → isSigned value = false →
    coerce parsed type = .ok value
  compares : ∀ type (held : Value), value.fits type = true → held.fits type = true →
    held.isNull = false → held.compareWith parsed = held.compareWith value

theorem constant_int {number : Int64} (above : number ≠ Int64.minValue) :
    ∃ constant, Constant (.int number) constant (.int number) := by
  have zero : (0 : Int64).toInt = 0 := rfl
  have least : Int64.minValue.toInt = -2 ^ 63 := rfl
  have floor : -2 ^ 63 < number.toInt := by
    have bound := number.le_toInt
    have apart : number.toInt ≠ -2 ^ 63 := fun same =>
      above (Int64.toInt_inj.mp (same.trans least.symm))
    omega
  have ceiling := number.toInt_lt
  have positive : (Int64.ofNat number.toInt.natAbs).toInt = number.toInt.natAbs :=
    Int64.toInt_ofNat_of_lt (by omega)
  have coerced (type : ColumnType) (fits : (Value.int number).fits type = true) :
      coerce (.int number) type = .ok (.int number) := by
    cases type <;> first | rfl | cases fits
  by_cases negative : number < 0
  · have below : number.toInt < 0 := by
      rw [Int64.lt_iff_toInt_lt, zero] at negative
      exact negative
    have negated : evalUnary .neg (.int (Int64.ofNat number.toInt.natAbs)) =
        .ok (.int number) := by
      have value : -((number.toInt.natAbs : Nat) : Int) = number.toInt := by omega
      have inside : -2 ^ 63 ≤ number.toInt ∧ number.toInt < 2 ^ 63 := by omega
      have checked_eq : checked (-((number.toInt.natAbs : Nat) : Int)) = some number := by
        unfold checked
        rw [value, if_pos inside, Int64.ofInt_toInt]
      simp only [evalUnary, positive, checked_eq]
    refine ⟨.unary .neg (.integer (Int64.ofNat number.toInt.natAbs)), ?_, ?_, rfl, ?_,
      fun type fits _ => coerced type fits, fun _ _ _ _ _ => rfl⟩
    · simp [literalExpr, signed, negative, Expr.evaluable]
    · intro scope row
      exact negated
    · simp [literalValue, isSigned, negative]
  · have same : Int64.ofNat number.toInt.natAbs = number := by
      rw [Int64.lt_iff_toInt_lt, zero] at negative
      apply Int64.toInt_inj.mp
      rw [positive]
      omega
    refine ⟨.integer number, ?_, fun _ _ => rfl, rfl, ?_, fun type fits _ => coerced type fits,
      fun _ _ _ _ _ => rfl⟩
    · simp [literalExpr, signed, negative, Expr.evaluable, same]
    · simp [literalValue, isSigned, negative]

theorem magnitudeExpr_small {magnitude : UInt64} (small : magnitude < TWO_POW_63) :
    magnitudeExpr magnitude =
      if (shortest magnitude).places = 0 then .integer (Int64.ofNat (shortest magnitude).number)
      else .real magnitude :=
  if_neg (UInt64.ne_of_lt (UInt64.lt_trans small (by decide)))

theorem magnitude_unsigned {bits : UInt64} (clear : bits &&& 0x8000000000000000 = 0) :
    bits &&& 0x7FFFFFFFFFFFFFFF = bits := by
  obtain ⟨sign, magnitude, split⟩ := signSplit bits
  have positive : sign = false := by
    rw [← Bool.not_eq_true, ← split.sign_ne_zero]
    exact not_not.mpr clear
  have whole := split.whole
  rw [positive, if_neg Bool.false_ne_true, Nat.zero_add] at whole
  apply UInt64.toNat_inj.mp
  rw [split.low, whole]

theorem magnitude_signed {bits : UInt64} (set : bits &&& 0x8000000000000000 ≠ 0) :
    realNegate (bits &&& 0x7FFFFFFFFFFFFFFF) = bits := by
  obtain ⟨sign, magnitude, split⟩ := signSplit bits
  have negative : sign = true := split.sign_ne_zero.mp set
  have whole := split.whole
  rw [negative, if_pos rfl] at whole
  have low : SignSplit (bits &&& 0x7FFFFFFFFFFFFFFF) false magnitude :=
    ⟨split.bound, by rw [split.low]; simp⟩
  apply UInt64.toNat_inj.mp
  unfold realNegate
  rw [low.xor_sign, whole]
  simp

/-- An integer in the place of a real. -/
theorem compareWith_int {number : Int64} {bits : UInt64}
    (same : ∀ other, realCompare other (realOfInt number) = realCompare other bits)
    {type : ColumnType} {held : Value}
    (valueFits : (Value.real bits).fits type = true)
    (heldFits : held.fits type = true)
    (some : held.isNull = false) :
    held.compareWith (.int number) = held.compareWith (.real bits) := by
  cases type <;> cases valueFits
  cases held with
  | null => cases some
  | int | text | bool => cases heldFits
  | real other =>
      rw [Value.compareWith_numbers rfl rfl (by nofun),
        Value.compareWith_numbers rfl rfl (by nofun), same]

theorem constant_real_int {bits : UInt64} {expr : Expr} {constant : PrehniteDB.Expr Statement}
    {number : Int64}
    (shape : literalExpr (.real bits) = expr)
    (made : expr.evaluable = some constant)
    (evaluates : ∀ scope row, PrehniteDB.eval scope row constant = .ok (.int number))
    (literal : literalValue constant = if isSigned (.real bits) then none else some (.int number))
    (value : isSigned (.real bits) = false → realOfInt number = bits)
    (same : ∀ other, realCompare other (realOfInt number) = realCompare other bits) :
    Constant (.real bits) constant (.int number) where
  made := shape ▸ made
  evaluates := evaluates
  notNull := rfl
  literal := literal
  coerced := by
    intro type fits plain
    cases type <;> cases fits
    exact congrArg (fun bits => Except.ok (Value.real bits)) (value plain)
  compares := fun _ _ valueFits heldFits some => compareWith_int same valueFits heldFits some

theorem constant_real {bits : UInt64}
    (small : bits &&& 0x7FFFFFFFFFFFFFFF < TWO_POW_63) :
    ∃ constant parsed, Constant (.real bits) constant parsed := by
  have number : realIsNaN bits = false := by
    unfold realIsNaN
    exact decide_eq_false (UInt64.not_lt.mpr (UInt64.le_of_lt (UInt64.lt_trans small (by decide))))
  have shape : literalExpr (.real bits) =
      signed (bits &&& 0x8000000000000000 ≠ 0) (magnitudeExpr (bits &&& 0x7FFFFFFFFFFFFFFF)) := by
    rw [literalExpr, number, if_neg Bool.false_ne_true]
  rw [magnitudeExpr_small small] at shape
  have coerced (type : ColumnType) (fits : (Value.real bits).fits type = true) :
      coerce (.real bits) type = .ok (.real bits) := by
    cases type <;> first | rfl | cases fits
  by_cases whole : (shortest (bits &&& 0x7FFFFFFFFFFFFFFF)).places = 0
  · obtain ⟨fits, digits⟩ := realOfInt_digits small whole
    rw [if_pos whole] at shape
    generalize (shortest (bits &&& 0x7FFFFFFFFFFFFFFF)).number = count at fits digits shape
    by_cases clear : bits &&& 0x8000000000000000 = 0
    · rw [magnitude_unsigned clear] at digits
      refine ⟨.integer (Int64.ofNat count), .int (Int64.ofNat count),
        constant_real_int shape ?_ (fun _ _ => rfl) ?_ (fun _ => digits)
          (fun other => by rw [digits])⟩
      · simp [signed, clear, Expr.evaluable]
      · simp [literalValue, isSigned, clear]
    · have checked_eq : checked (-(Int64.ofNat count).toInt) = some (Int64.ofInt (-count)) := by
        unfold checked
        rw [Int64.toInt_ofNat_of_lt fits, if_pos (by omega)]
      have negated : evalUnary .neg (.int (Int64.ofNat count)) =
          .ok (.int (Int64.ofInt (-count))) := by
        simp only [evalUnary, checked_eq]
      refine ⟨.unary .neg (.integer (Int64.ofNat count)), .int (Int64.ofInt (-count)),
        constant_real_int shape ?_ (fun _ _ => negated) ?_ ?_ fun other => ?_⟩
      · simp [signed, clear, Expr.evaluable]
      · simp [literalValue, isSigned, clear]
      · simp [isSigned, clear]
      · have whole_eq := magnitude_signed clear
        rw [← digits] at whole_eq
        by_cases none : count = 0
        · -- the two zeros
          subst none
          rw [← whole_eq]
          rfl
        · rw [realOfInt_negative fits none, whole_eq]
  · rw [if_neg whole] at shape
    by_cases clear : bits &&& 0x8000000000000000 = 0
    · rw [magnitude_unsigned clear] at shape
      refine ⟨.real bits, .real bits, ?_, fun _ _ => rfl, rfl, ?_,
        fun type fits _ => coerced type fits, fun _ _ _ _ _ => rfl⟩
      · rw [shape]
        simp [signed, clear, Expr.evaluable]
      · simp [literalValue, isSigned, clear]
    · have negated : evalUnary .neg (.real (bits &&& 0x7FFFFFFFFFFFFFFF)) = .ok (.real bits) := by
        rw [evalUnary, magnitude_signed clear]
      refine ⟨.unary .neg (.real (bits &&& 0x7FFFFFFFFFFFFFFF)), .real bits, ?_,
        fun _ _ => negated, rfl, ?_, fun type fits _ => coerced type fits, fun _ _ _ _ _ => rfl⟩
      · rw [shape]
        simp [signed, clear, Expr.evaluable]
      · simp [literalValue, isSigned, clear]

theorem constant_text (string : String) :
    Constant (.text string) (.str string) (.text string) where
  made := rfl
  evaluates := fun _ _ => rfl
  notNull := rfl
  literal := rfl
  coerced := fun type fits _ => by cases type <;> first | rfl | cases fits
  compares := fun _ _ _ _ _ => rfl

theorem constant_bool (truth : Bool) : Constant (.bool truth) (.bool truth) (.bool truth) where
  made := rfl
  evaluates := fun _ _ => rfl
  notNull := rfl
  literal := rfl
  coerced := fun type fits _ => by cases type <;> first | rfl | cases fits
  compares := fun _ _ _ _ _ => rfl

theorem constant_exists {value : Value} (representable : Representable value) :
    ∃ constant parsed, Constant value constant parsed := by
  cases value with
  | null => exact representable.elim
  | int number =>
      obtain ⟨constant, found⟩ := constant_int representable
      exact ⟨constant, _, found⟩
  | real bits => exact constant_real representable
  | text string => exact ⟨_, _, constant_text string⟩
  | bool truth => exact ⟨_, _, constant_bool truth⟩

/-! ## Equal values -/

def isNaN : Value → Bool
  | .real bits => realIsNaN bits
  | _ => false

theorem representable_number {value : Value} (representable : Representable value) :
    isNaN value = false ∧ value.isNull = false := by
  cases value with
  | null => exact representable.elim
  | real bits =>
      refine ⟨?_, rfl⟩
      have small : bits &&& 0x7FFFFFFFFFFFFFFF < TWO_POW_63 := representable
      exact decide_eq_false
        (UInt64.not_lt.mpr (UInt64.le_of_lt (UInt64.lt_trans small (by decide))))
  | int | text | bool => exact ⟨rfl, rfl⟩

theorem realPlace_eq_iff {left right : UInt64} :
    realPlace left = realPlace right ↔
      left = right ∨ realIsZero left = true ∧ realIsZero right = true := by
  refine ⟨realPlace_eq, ?_⟩
  rintro (rfl | ⟨leftZero, rightZero⟩)
  · rfl
  · rcases AccessPaths.realIsZero_cases leftZero with rfl | rfl <;>
      rcases AccessPaths.realIsZero_cases rightZero with rfl | rfl <;> rfl

section Comparisons

variable {type : ColumnType} {held value : Value}

theorem compareWith_equal
    (heldFits : held.fits type = true)
    (valueFits : value.fits type = true)
    (heldSome : held.isNull = false)
    (valueSome : value.isNull = false)
    (number : isNaN value = false) :
    ((∃ ordering, held.compareWith value = .ok ordering) ↔ isNaN held = false) ∧
      (held.compareWith value = .ok .eq ↔ held.equal value = true) := by
  cases held with
  | null => cases heldSome
  | int first =>
      cases type <;> cases heldFits
      cases value with
      | null => cases valueSome
      | real | text | bool => cases valueFits
      | int second =>
          refine ⟨iff_of_true ⟨_, rfl⟩ rfl, ?_⟩
          simp [Value.compareWith, Value.equal, Int64.toInt_inj]
  | text first =>
      cases type <;> cases heldFits
      cases value with
      | null => cases valueSome
      | real | int | bool => cases valueFits
      | text second =>
          refine ⟨iff_of_true ⟨_, rfl⟩ rfl, ?_⟩
          simp only [Value.compareWith, Value.equal, Except.ok.injEq, decide_eq_true_eq]
          refine ⟨Value.textCompare_eq, ?_⟩
          rintro rfl
          simp [Value.textCompare]
  | bool first =>
      cases type <;> cases heldFits
      cases value with
      | null => cases valueSome
      | real | int | text => cases valueFits
      | bool second =>
          refine ⟨iff_of_true ⟨_, rfl⟩ rfl, ?_⟩
          cases first <;> cases second <;> decide
  | real first =>
      cases type <;> cases heldFits
      cases value with
      | null => cases valueSome
      | bool | int | text => cases valueFits
      | real second =>
          have plain : realIsNaN second = false := number
          have equal : (Value.real first).equal (.real second) =
              (!realIsNaN first && !realIsNaN second &&
                (decide (first = second) || (realIsZero first && realIsZero second))) := rfl
          rw [Value.compareWith_numbers rfl rfl (by rintro _ _ ⟨⟨⟩, _⟩), equal]
          unfold realCompare
          rw [plain, Bool.or_false]
          cases found : realIsNaN first with
          | true => simp [isNaN, found]
          | false => simp [isNaN, found, realPlace_eq_iff]

end Comparisons

/-! ## The predicate on a row -/

open AccessPaths (Schema Table Version Index AccessPath ColumnPredicate IndexPlan)
open AccessPaths (bestIndex better buildIndexScan predicatesOf chooseAccess bounds)

/-- The column stands at this place, and no other has its name. -/
structure Placed (schema : Schema) (name : String) (type : ColumnType) (place : Nat) : Prop where
  found : schema.columns[place]? = some { name, type }
  distinct : (schema.columns.map AccessPaths.Column.name).Nodup

namespace Placed

variable {schema : Schema} {name : String} {type : ColumnType} {place : Nat}

theorem unique (placed : Placed schema name type place) {other : Nat}
    {column : AccessPaths.Column} (found : schema.columns[other]? = some column)
    (same : column.name = name) : other = place := by
  have left : (schema.columns.map AccessPaths.Column.name)[other]? = some name := by
    rw [List.getElem?_map, found, Option.map_some, same]
  have right : (schema.columns.map AccessPaths.Column.name)[place]? = some name := by
    rw [List.getElem?_map, placed.found, Option.map_some]
  have bound : other < (schema.columns.map AccessPaths.Column.name).length := by
    obtain ⟨bound, -⟩ := List.getElem?_eq_some_iff.mp left
    exact bound
  exact (List.getElem?_inj bound placed.distinct).mp (left.trans right.symm)

theorem columnIndex (placed : Placed schema name type place) :
    schema.columnIndex name = some place := by
  obtain ⟨bound, own⟩ := List.getElem?_eq_some_iff.mp placed.found
  refine List.findIdx?_eq_some_iff_getElem.mpr ⟨bound, by simp [own], fun other before => ?_⟩
  have inside : other < schema.columns.length := before.trans bound
  simp only [decide_eq_true_eq]
  intro same
  exact absurd (placed.unique (List.getElem?_eq_getElem inside) same) (Nat.ne_of_lt before)

theorem resolve (placed : Placed schema name type place) (qualifier : String) :
    (schema.scope qualifier).resolve { table := none, name } = .ok place := by
  refine Scope.resolve_ok_iff.mpr (List.perm_singleton.mp ?_)
  refine (List.perm_ext_iff_of_nodup List.nodup_findIdxs (List.nodup_singleton place)).mpr
    fun other => ?_
  rw [List.mem_findIdxs_iff_exists_getElem_pos, List.mem_singleton]
  constructor
  · rintro ⟨bound, names⟩
    have inside : other < schema.columns.length := by
      simpa [AccessPaths.Schema.scope] using bound
    have same : schema.columns[other].name = name := by
      simpa [AccessPaths.Schema.scope, ColumnRef.names] using names
    exact placed.unique (List.getElem?_eq_getElem inside) same
  · rintro rfl
    obtain ⟨bound, own⟩ := List.getElem?_eq_some_iff.mp placed.found
    refine ⟨by simpa [AccessPaths.Schema.scope] using bound, ?_⟩
    simp [AccessPaths.Schema.scope, ColumnRef.names, own]

end Placed

/-- `column = constant`, for the evaluator. -/
def equationFilter (name : String) (constant : PrehniteDB.Expr Statement) :
    PrehniteDB.Expr Statement :=
  .binary (.comparison .eq) (.column ⟨none, name⟩) constant

section Rows

variable
  {schema : Schema} {name qualifier : String} {type : ColumnType} {place : Nat}
  {value parsed : Value} {constant : PrehniteDB.Expr Statement}

theorem evaluable_equation (known : Constant value constant parsed) :
    (equation name value).evaluable = some (equationFilter name constant) := by
  unfold equation
  rw [Expr.evaluable, Expr.evaluable, known.made]
  rfl

theorem passes_equation
    (placed : Placed schema name type place)
    (known : Constant value constant parsed)
    (row : List Value) :
    PrehniteDB.passesFilter (some (equationFilter name constant)) (schema.scope qualifier) row =
      (compareOp .eq (column row place) parsed).map fun verdict =>
        decide (verdict = .bool true) := by
  have evaluated : PrehniteDB.eval (schema.scope qualifier) row (equationFilter name constant) =
      compareOp .eq (column row place) parsed := by
    unfold equationFilter
    rw [PrehniteDB.eval, PrehniteDB.eval, placed.resolve, known.evaluates]
    rfl
  rw [PrehniteDB.passesFilter, evaluated]

theorem compareOp_constant
    (known : Constant value constant parsed)
    (valueFits : value.fits type = true)
    {held : Value}
    (heldFits : held.fits type = true)
    (heldSome : held.isNull = false) :
    compareOp .eq held parsed =
      (held.compareWith value).map fun ordering => .bool (decide (ordering = .eq)) := by
  unfold compareOp
  rw [heldSome, known.notNull, Bool.false_or, if_neg Bool.false_ne_true,
    known.compares type held valueFits heldFits heldSome]
  rfl

/-- A row passes when its value equals that of the literal; only a NaN is no answer. -/
theorem passes_iff
    (placed : Placed schema name type place)
    (known : Constant value constant parsed)
    (valueFits : value.fits type = true)
    (valueSome : value.isNull = false)
    (number : isNaN value = false)
    {row : List Value}
    (heldFits : (column row place).fits type = true) :
    ((∃ verdict, PrehniteDB.passesFilter (some (equationFilter name constant))
          (schema.scope qualifier) row = .ok verdict) ↔
        isNaN (column row place) = false) ∧
      (PrehniteDB.passesFilter (some (equationFilter name constant)) (schema.scope qualifier) row =
          .ok true ↔ (column row place).equal value = true) := by
  rw [passes_equation placed known]
  generalize column row place = held at heldFits ⊢
  cases null : held.isNull with
  | true =>
      obtain rfl : held = .null := of_decide_eq_true null
      have apart : Value.equal .null value = false := by
        cases value <;> first | rfl | cases valueSome
      simp [compareOp, Value.isNull, isNaN, apart, Except.map]
  | false =>
      obtain ⟨compares, equals⟩ := compareWith_equal heldFits valueFits null valueSome number
      rw [compareOp_constant known valueFits heldFits null, ← compares, ← equals]
      cases held.compareWith value with
      | error error => simp [Except.map]
      | ok ordering => cases ordering <;> simp [Except.map]

end Rows

/-! ## The plan -/

section Plans

variable
  {schema : Schema} {name qualifier : String} {type : ColumnType} {place : Nat}
  {value parsed : Value} {constant : PrehniteDB.Expr Statement}

/-- What the planner finds in the predicate. -/
def pinned (place : Nat) (value : Value) : List ColumnPredicate :=
  [{ column := place, kind := .eq value }]

/-- A literal with a sign is none to the planner. -/
theorem predicates_equation
    (placed : Placed schema name type place)
    (known : Constant value constant parsed)
    (valueFits : value.fits type = true)
    (valueSome : value.isNull = false) :
    predicatesOf schema (equationFilter name constant) =
      if isSigned value then [] else pinned place value := by
  have typed : (schema.columns[place]?).map AccessPaths.Column.type = some type := by
    rw [placed.found, Option.map_some]
  have oriented :
      AccessPaths.orient .eq (.column ⟨none, name⟩ : PrehniteDB.Expr Statement) constant =
        (literalValue constant).map fun literal => (⟨none, name⟩, literal, .eq) := rfl
  unfold predicatesOf equationFilter
  rw [AccessPaths.collectConjuncts]
  · simp only [List.filterMap_cons, List.filterMap_nil, AccessPaths.classify, oriented,
      known.literal]
    cases signed : isSigned value with
    | true => rfl
    | false =>
        have coerced := known.coerced type valueFits signed
        simp [placed.columnIndex, typed, coerced, Except.toOption, valueSome,
          AccessPaths.predKind, pinned]
  · rintro _ _ ⟨⟩

theorem better_isSome
    (predicates : List ColumnPredicate)
    (best : Option (Index × IndexPlan))
    (index : Index) :
    (better predicates best index).isSome ↔
      best.isSome ∨ index.isBuilding = false ∧ (buildIndexScan predicates index).isSome := by
  unfold better
  cases index.isBuilding with
  | true => simp
  | false =>
      cases buildIndexScan predicates index <;> cases best <;> simp
      split <;> rfl

theorem bestIndex_isSome (predicates : List ColumnPredicate) (indexes : List Index) :
    (bestIndex predicates indexes).isSome ↔
      ∃ index ∈ indexes, index.isBuilding = false ∧
        (buildIndexScan predicates index).isSome := by
  have folded (best : Option (Index × IndexPlan)) :
      (indexes.foldl (better predicates) best).isSome ↔
        best.isSome ∨ ∃ index ∈ indexes, index.isBuilding = false ∧
          (buildIndexScan predicates index).isSome := by
    induction indexes generalizing best with
    | nil => simp
    | cons index indexes inductionHypothesis =>
        rw [List.foldl_cons, inductionHypothesis, better_isSome, List.exists_mem_cons_iff, or_assoc]
  have whole := folded none
  simpa [bestIndex] using whole

theorem findEq_pinned (place : Nat) (value : Value) (position : Nat) :
    AccessPaths.findEq (pinned place value) position =
      if place = position then some value else none := by
  unfold AccessPaths.findEq pinned
  by_cases same : place = position <;> simp [same]

theorem bounds_pinned (place : Nat) (value : Value) (columns : List Nat) :
    (bounds (pinned place value) columns).lower = none ∧
      (bounds (pinned place value) columns).upper = none := by
  induction columns with
  | nil => exact ⟨rfl, rfl⟩
  | cons position columns inductionHypothesis =>
      rw [bounds, findEq_pinned]
      split
      case h_1 => exact inductionHypothesis
      case h_2 => exact ⟨rfl, rfl⟩

theorem buildIndexScan_pinned (place : Nat) (value : Value) (index : Index) :
    (buildIndexScan (pinned place value) index).isSome ↔ index.columns.head? = some place := by
  obtain ⟨lower, upper⟩ := bounds_pinned place value index.columns
  unfold buildIndexScan
  dsimp only
  unfold AccessPaths.Bounds.hasRange AccessPaths.Bounds.lowerKey AccessPaths.Bounds.upperKey
  rw [lower, upper]
  cases columns : index.columns with
  | nil => simp [bounds]
  | cons position rest =>
      rw [bounds, findEq_pinned]
      by_cases same : place = position
      · rw [if_pos same]
        simp [same]
      · rw [if_neg same]
        simp [Ne.symm same]

theorem buildIndexScan_nil (index : Index) : buildIndexScan [] index = none := by
  have empty : bounds [] index.columns = { pins := [], lower := none, upper := none } := by
    cases index.columns <;> rfl
  unfold buildIndexScan
  rw [empty]
  rfl

theorem not_crossed_self (value : Value) : ¬ value.Crossed value := by
  cases value with
  | real bits => exact fun crossed => crossed.2.2 rfl
  | _ => exact fun crossed => crossed

theorem signsAgree_pinned {row : List Value} (holds : column row place = value)
    (columns : List Nat) : AccessPaths.SignsAgree (pinned place value) row columns := by
  induction columns with
  | nil => trivial
  | cons position columns inductionHypothesis =>
      rw [AccessPaths.SignsAgree, findEq_pinned]
      by_cases same : place = position
      · rw [if_pos same, ← same, holds]
        exact ⟨not_crossed_self value, inductionHypothesis⟩
      · rw [if_neg same]
        exact ⟨by rintro _ ⟨⟩, by rintro _ ⟨⟩⟩

theorem met_pinned {row : List Value} (holds : column row place = value)
    (number : isNaN value = false)
    (valueSome : value.isNull = false)
    (valueFits : value.fits type = true) :
    AccessPaths.Met (pinned place value) row := by
  intro predicate listed
  obtain rfl := List.mem_singleton.mp listed
  refine ⟨type, valueFits, ?_, .eq, ?_, rfl⟩
  · dsimp only
    rw [holds]
    exact valueFits
  · dsimp only
    rw [holds]
    obtain ⟨compares, -⟩ := compareWith_equal valueFits valueFits valueSome valueSome number
    obtain ⟨ordering, compared⟩ := compares.mpr number
    have swapped := Value.compareWith_swap compared
    rw [compared] at swapped
    cases ordering with
    | eq => exact compared
    | lt | gt => cases swapped

theorem range_pinned
    {index : Index}
    {plan : IndexPlan}
    (built : buildIndexScan (pinned place value) index = some plan)
    (number : isNaN value = false)
    (valueSome : value.isNull = false)
    (valueFits : value.fits type = true)
    (row : List Value)
    (rowid : Nat) :
    inIndexRange plan.lower plan.upper (encodeIndexKey row index.columns rowid) = true ↔
      column row place = value := by
  constructor
  · intro inside
    have leads : index.columns.head? = some place :=
      (buildIndexScan_pinned place value index).mp (by rw [built]; rfl)
    obtain ⟨rest, columns⟩ := List.head?_eq_some_iff.mp leads
    obtain ⟨lowerEnd, upperEnd⟩ := AccessPaths.buildIndexScan_some built
    obtain ⟨lower, upper⟩ := bounds_pinned place value index.columns
    have pins : (bounds (pinned place value) index.columns).pins =
        value :: (bounds (pinned place value) rest).pins := by
      rw [columns, bounds, findEq_pinned, if_pos rfl]
    unfold AccessPaths.Bounds.lowerKey at lowerEnd
    unfold AccessPaths.Bounds.upperKey at upperEnd
    rw [lower] at lowerEnd
    rw [upper] at upperEnd
    dsimp only at lowerEnd upperEnd
    rw [if_pos (by rw [pins]; exact List.cons_ne_nil _ _)] at upperEnd
    rw [← Option.some.inj lowerEnd, ← Option.some.inj upperEnd,
      ReadPaths.inIndexRange_prefixUpperBound] at inside
    have starts : encodeIndexValue value <+:
        encodeIndexValue (column row place) ++
          (encodeIndexValuePrefix row rest ++ rowidKey rowid) := by
      refine List.IsPrefix.trans ?_ (inside.trans ?_)
      · unfold AccessPaths.Bounds.pinnedPrefix
        rw [pins, List.flatMap_cons]
        exact List.prefix_append _ _
      · rw [columns]
        simp [encodeIndexKey, encodeIndexValuePrefix]
    exact encodeIndexValue_isPrefix_iff.mp starts
  · intro holds
    exact (AccessPaths.plan_range_iff (met_pinned holds number valueSome valueFits) built).mpr
      (signsAgree_pinned holds index.columns)

end Plans

/-! ## The rows of the child -/

/-- An index whose first column is the foreign key's is searched for the literal. -/
def Searched (schema : Schema) (place : Nat) (value : Value) : Prop :=
  isSigned value = false ∧
    ∃ index ∈ schema.indexes, index.isBuilding = false ∧ index.columns.head? = some place

/-- The rows a cascade has to act on. -/
def Refers {schema : Schema} (table : Table schema) (place : Nat) (value : Value)
    (version : Version) : Prop :=
  version ∈ table.versions ∧ version.visible = true ∧
    (column version.values place).equal value = true

/--
A search of an index misses the other zero, and a walk through the table stops at
a NaN.
-/
def Untroubled {schema : Schema} (table : Table schema) (place : Nat) (value : Value) : Prop :=
  ∀ version ∈ table.versions, version.visible = true →
    (Searched schema place value → ¬ (column version.values place).Crossed value) ∧
      (¬ Searched schema place value → isNaN (column version.values place) = false)

section Rows

variable
  {schema : Schema} {table : Table schema} {name qualifier : String} {type : ColumnType}
  {place : Nat} {value parsed : Value} {constant : PrehniteDB.Expr Statement}

theorem access_equation
    (placed : Placed schema name type place)
    (known : Constant value constant parsed)
    (valueFits : value.fits type = true)
    (valueSome : value.isNull = false) :
    (¬ Searched schema place value ∧
        (chooseAccess (some schema) (some (equationFilter name constant)) []).1 = .fullScan) ∨
      Searched schema place value ∧
        ∃ index plan, index ∈ schema.indexes ∧ index.isBuilding = false ∧
          buildIndexScan (pinned place value) index = some plan ∧
            (chooseAccess (some schema) (some (equationFilter name constant)) []).1 =
              .indexScan index.root plan.lower plan.upper := by
  have predicates := predicates_equation placed known valueFits valueSome
  have built (index : Index) :
      (buildIndexScan (if isSigned value then [] else pinned place value) index).isSome ↔
        isSigned value = false ∧ index.columns.head? = some place := by
    cases isSigned value with
    | true => simp [buildIndexScan_nil]
    | false => simpa using buildIndexScan_pinned place value index
  have found := bestIndex_isSome (if isSigned value then [] else pinned place value) schema.indexes
  have searched :
      (bestIndex (if isSigned value then [] else pinned place value) schema.indexes).isSome ↔
        Searched schema place value := by
    rw [found]
    simp only [built, Searched]
    constructor
    · rintro ⟨index, listed, finished, unsigned, leads⟩
      exact ⟨unsigned, index, listed, finished, leads⟩
    · rintro ⟨unsigned, index, listed, finished, leads⟩
      exact ⟨index, listed, finished, unsigned, leads⟩
  unfold chooseAccess
  dsimp only
  rw [predicates, ← searched]
  cases chosen : bestIndex (if isSigned value then [] else pinned place value) schema.indexes with
  | none => exact .inl ⟨by simp, rfl⟩
  | some best =>
      obtain ⟨index, plan⟩ := best
      obtain ⟨listed, finished, scan⟩ := AccessPaths.bestIndex_some chosen
      have unsigned : isSigned value = false := ((built index).mp (by rw [scan]; rfl)).1
      rw [unsigned, if_neg Bool.false_ne_true] at scan
      exact .inr ⟨rfl, index, plan, listed, finished, scan, rfl⟩

/-- The rows that the access path leads to. -/
theorem scan_equation
    (placed : Placed schema name type place)
    (known : Constant value constant parsed)
    (number : isNaN value = false)
    (valueFits : value.fits type = true)
    (valueSome : value.isNull = false) :
    ∃ found,
      table.scan (chooseAccess (some schema) (some (equationFilter name constant)) []).1 =
          .ok found ∧
        ∀ version,
          version ∈ found ↔
            version ∈ table.versions ∧ version.visible = true ∧
              (Searched schema place value → column version.values place = value) := by
  rcases access_equation placed known valueFits valueSome with
    ⟨notSearched, access⟩ | ⟨searched, index, plan, listed, finished, built, access⟩
  · refine ⟨_, by rw [access]; rfl, fun version => ?_⟩
    simp [List.mem_filter, notSearched]
  · have entries := table.indexed index listed finished
    have rooted :
        ∀ key ∈ (table.trees index.root).filter (inIndexRange plan.lower plan.upper),
          ∃ version ∈ table.versions, key = index.key version := by
      intro key member
      have entry := entries.mem_iff.mp (List.mem_filter.mp member).1
      obtain ⟨version, stored, rfl⟩ := List.mem_map.mp entry
      exact ⟨version, stored, rfl⟩
    obtain ⟨found, followed, -, members⟩ := Table.follow_ok rooted []
    refine ⟨found, by rw [access]; exact followed, fun version => (members version).trans ?_⟩
    have range := range_pinned built number valueSome valueFits version.values
      version.rowid.toNat
    constructor
    · rintro ⟨stored, visible, inside, -⟩
      exact ⟨stored, visible, fun _ => range.mp (List.mem_filter.mp inside).2⟩
    · rintro ⟨stored, visible, holds⟩
      refine ⟨stored, visible, List.mem_filter.mpr ⟨?_, range.mpr (holds searched)⟩, by simp⟩
      exact entries.mem_iff.mpr (List.mem_map.mpr ⟨version, stored, rfl⟩)

theorem equal_of_crossed {held value : Value} (crossed : held.Crossed value) :
    held.equal value = true := by
  cases held <;> cases value <;> try exact crossed.elim
  case real.real first second =>
    obtain ⟨firstZero, secondZero, -⟩ := crossed
    rcases AccessPaths.realIsZero_cases firstZero with rfl | rfl <;>
      rcases AccessPaths.realIsZero_cases secondZero with rfl | rfl <;> rfl

theorem crossed_of_equal {held value : Value} (equal : held.equal value = true) :
    held = value ∨ held.Crossed value := by
  cases held <;> cases value <;>
    simp only [Value.equal, decide_eq_true_eq, Bool.false_eq_true] at equal
  case null.null => exact .inl rfl
  case int.int | text.text | bool.bool => exact .inl (congrArg _ equal)
  case real.real first second =>
    simp only [realEqual, Bool.and_eq_true, Bool.or_eq_true, decide_eq_true_eq] at equal
    by_cases same : first = second
    · exact .inl (congrArg _ same)
    · obtain ⟨firstZero, secondZero⟩ := equal.2.resolve_left same
      exact .inr ⟨decide_eq_true firstZero, decide_eq_true secondZero, same⟩

/-- Where the predicate answers for all rows together, it answers for each. -/
theorem filterRows_evaluates
    {scope : Scope}
    {filter : PrehniteDB.Expr Statement}
    {versions kept : List Version}
    (ran : AccessPaths.filterRows scope filter versions = .ok kept) :
    ∀ version ∈ versions,
      ∃ verdict, PrehniteDB.passesFilter (some filter) scope version.values = .ok verdict := by
  induction versions generalizing kept with
  | nil => nofun
  | cons first versions inductionHypothesis =>
      rw [AccessPaths.filterRows] at ran
      cases verdict : PrehniteDB.passesFilter (some filter) scope first.values with
      | error error =>
          rw [verdict] at ran
          cases ran
      | ok accepted =>
          cases later : AccessPaths.filterRows scope filter versions with
          | error error =>
              rw [verdict, later] at ran
              cases ran
          | ok rest =>
              exact List.forall_mem_cons.mpr ⟨⟨accepted, verdict⟩, inductionHypothesis later⟩

/-- The rows that pass are those that refer, exactly when no row troubles the access path. -/
theorem answer_equation
    (placed : Placed schema name type place)
    (known : Constant value constant parsed)
    (representable : Representable value)
    (valueFits : value.fits type = true) :
    (∃ kept,
        table.answer qualifier (equationFilter name constant)
            (chooseAccess (some schema) (some (equationFilter name constant)) []).1 = .ok kept ∧
          ∀ version, version ∈ kept ↔ Refers table place value version) ↔
      Untroubled table place value := by
  obtain ⟨number, valueSome⟩ := representable_number representable
  obtain ⟨found, scanned, members⟩ :=
    @scan_equation schema table _ _ _ _ _ _ placed known number valueFits valueSome
  have heldFits (version : Version) (stored : version ∈ table.versions) :
      (column version.values place).fits type = true :=
    table.typed version stored place _ placed.found
  have passes (version : Version) (stored : version ∈ table.versions) :=
    @passes_iff schema name qualifier type place value parsed constant placed known valueFits
      valueSome number version.values (heldFits version stored)
  have whole : table.answer qualifier (equationFilter name constant)
      (chooseAccess (some schema) (some (equationFilter name constant)) []).1 =
        AccessPaths.filterRows (schema.scope qualifier) (equationFilter name constant) found := by
    unfold AccessPaths.Table.answer
    rw [scanned]
    rfl
  rw [whole]
  constructor
  · rintro ⟨kept, ran, picks⟩ version stored visible
    have evaluates := filterRows_evaluates ran
    obtain ⟨again, reran, picked⟩ := AccessPaths.filterRows_ok evaluates
    obtain rfl := Except.ok.inj (ran.symm.trans reran)
    refine ⟨fun searched crossed => ?_, fun notSearched => ?_⟩
    · have equal := equal_of_crossed crossed
      have listed := ((picked version).mp ((picks version).mpr ⟨stored, visible, equal⟩)).1
      have holds := ((members version).mp listed).2.2 searched
      rw [holds] at crossed
      exact not_crossed_self value crossed
    · have listed : version ∈ found :=
        (members version).mpr ⟨stored, visible, fun searched => absurd searched notSearched⟩
      exact (passes version stored).1.mp (evaluates version listed)
  · intro untroubled
    have evaluates : ∀ version ∈ found, ∃ verdict,
        PrehniteDB.passesFilter (some (equationFilter name constant)) (schema.scope qualifier)
          version.values = .ok verdict := by
      intro version listed
      obtain ⟨stored, visible, holds⟩ := (members version).mp listed
      refine (passes version stored).1.mpr ?_
      by_cases searched : Searched schema place value
      · rw [holds searched]
        exact number
      · exact (untroubled version stored visible).2 searched
    obtain ⟨kept, ran, picked⟩ := AccessPaths.filterRows_ok evaluates
    refine ⟨kept, ran, fun version => (picked version).trans ?_⟩
    constructor
    · rintro ⟨listed, accepted⟩
      obtain ⟨stored, visible, -⟩ := (members version).mp listed
      exact ⟨stored, visible, (passes version stored).2.mp accepted⟩
    · rintro ⟨stored, visible, equal⟩
      refine ⟨(members version).mpr ⟨stored, visible, fun searched => ?_⟩,
        (passes version stored).2.mpr equal⟩
      exact (crossed_of_equal equal).resolve_right ((untroubled version stored visible).1 searched)

end Rows

/-! ## The statements and their rows -/

section Cascades

variable {rules : TextRules} {schema : Schema}

/--
Both statements are parsed and compare the column with a constant that is equal
to the value, and to no other value of the column.
-/
structure ReadsBack
    (reference : Reference rules)
    (depth : Nat)
    (type : ColumnType)
    (value : Value)
    (literal : Expr)
    (constant : PrehniteDB.Expr Statement) : Prop where
  deletes :
    parseWithin rules depth (String.ofList (cascadeDelete reference value)) =
      .ok (.delete (String.ofList reference.table.name)
        (some (.binary (.comparison .eq)
          (.column ⟨none, String.ofList reference.column.name⟩) literal)))
  setsNull :
    parseWithin rules depth (String.ofList (cascadeSetNull reference value)) =
      .ok (.update (String.ofList reference.table.name)
        [(String.ofList reference.column.name, .null)]
        (some (.binary (.comparison .eq)
          (.column ⟨none, String.ofList reference.column.name⟩) literal)))
  made : literal.evaluable = some constant
  equals : ∃ parsed : Value,
    (∀ scope row, PrehniteDB.eval scope row constant = .ok parsed) ∧
      ∀ held : Value, held.fits type = true → held.isNull = false →
        (compareOp .eq held parsed = .ok (.bool true) ↔ held.equal value = true)

/-- The rows that the planned statements pick are those that refer to the value. -/
def ActsExactly
    (reference : Reference rules)
    (depth : Nat)
    (table : Table schema)
    (place : Nat)
    (type : ColumnType)
    (value : Value) : Prop :=
  ∃ literal constant filter,
    ReadsBack reference depth type value literal constant ∧
      (Expr.binary (.comparison .eq) (.column ⟨none, String.ofList reference.column.name⟩)
          literal).evaluable = some filter ∧
        ∃ kept,
          table.answer (String.ofList reference.table.name) filter
              (chooseAccess (some schema) (some filter) []).1 = .ok kept ∧
            ∀ version, version ∈ kept ↔ Refers table place value version

theorem tooLarge_iff_of_number {value : Value} (valueSome : value.isNull = false)
    (finite : ∀ bits, value = .real bits →
      bits &&& 0x7FFFFFFFFFFFFFFF < REAL_INFINITY) :
    TooLarge value ↔ ¬ Representable value := by
  cases value with
  | null => cases valueSome
  | text | bool => exact iff_of_false id (not_not.mpr trivial)
  | int number =>
      have least : Int64.minValue.toInt = -2 ^ 63 := rfl
      have floor := number.le_toInt
      have ceiling := number.toInt_lt
      have same : number = Int64.minValue ↔ number.toInt = -2 ^ 63 := by
        rw [← least, Int64.toInt_inj]
      unfold TooLarge Representable
      rw [not_not, same]
      omega
  | real bits =>
      have below := finite bits rfl
      have number : realIsNaN bits = false :=
        decide_eq_false (UInt64.not_lt.mpr (UInt64.le_of_lt below))
      rw [TooLarge, Representable, largeMagnitude_iff (UInt64.le_of_lt below), UInt64.not_lt]
      simp [number, UInt64.ne_of_lt below]

theorem finite_of_constant {bits : UInt64} {constant : PrehniteDB.Expr Statement}
    (made : (literalExpr (.real bits)).evaluable = some constant)
    {parsed : Value}
    (evaluates : PrehniteDB.eval [] [] constant = .ok parsed) :
    bits &&& 0x7FFFFFFFFFFFFFFF < REAL_INFINITY := by
  rcases nan : realIsNaN bits with _ | _
  · have shape : literalExpr (.real bits) =
        signed (bits &&& 0x8000000000000000 ≠ 0)
          (magnitudeExpr (bits &&& 0x7FFFFFFFFFFFFFFF)) := by
      rw [literalExpr, nan, if_neg Bool.false_ne_true]
    refine UInt64.lt_of_le_of_ne (magnitude_le nan) fun infinite => ?_
    have column : magnitudeExpr (bits &&& 0x7FFFFFFFFFFFFFFF) = .column ⟨none, "inf"⟩ :=
      if_pos infinite
    rw [shape, column] at made
    unfold signed at made
    split at made <;> cases made <;> cases evaluates
  · have column : literalExpr (.real bits) = .column ⟨none, "NaN"⟩ := by
      rw [literalExpr, nan, if_pos rfl]
    rw [column] at made
    cases made
    cases evaluates

/--
The statements of a cascade are read back and act on exactly the rows that refer
to the value, exactly when its literal is representable and no row of the child
is a trouble to the access path.
-/
theorem cascade_acts_iff
    (reference : Reference rules)
    (depth : Nat)
    (deep : 10 ≤ depth)
    (table : Table schema)
    (place : Nat)
    (type : ColumnType)
    (placed : Placed schema (String.ofList reference.column.name) type place)
    (value : Value)
    (fits : value.fits type = true)
    (notNull : value.isNull = false) :
    ActsExactly reference depth table place type value ↔
      Representable value ∧ Untroubled table place value := by
  constructor
  · rintro ⟨literal, constant, filter, back, filtered, rows⟩
    have notLarge : ¬ TooLarge value := by
      intro large
      obtain ⟨error, failed⟩ := parse_tooLarge reference large depth
      exact nomatch failed.symm.trans back.deletes
    have parsedAs := (parse_cascadeDelete reference notLarge deep).symm.trans back.deletes
    unfold equation at parsedAs
    injection parsedAs with statement
    injection statement with _ wanted
    injection wanted with predicate
    injection predicate with _ _ same
    have made := back.made
    rw [← same] at made filtered
    obtain ⟨answer, evaluates, -⟩ := back.equals
    have representable : Representable value := by
      by_contra not
      refine notLarge ((tooLarge_iff_of_number notNull fun bits shape => ?_).mpr not)
      rw [shape] at made
      exact finite_of_constant made (evaluates [] [])
    obtain ⟨other, parsed, known⟩ := constant_exists representable
    obtain rfl := Option.some.inj (known.made.symm.trans made)
    obtain rfl := Option.some.inj ((evaluable_equation known).symm.trans filtered)
    exact ⟨representable, (answer_equation placed known representable fits).mp rows⟩
  · rintro ⟨representable, untroubled⟩
    obtain ⟨constant, parsed, known⟩ := constant_exists representable
    obtain ⟨number, -⟩ := representable_number representable
    have notLarge : ¬ TooLarge value := by
      intro large
      refine (tooLarge_iff_of_number notNull fun bits shape => ?_).mp large representable
      rw [shape] at known
      exact finite_of_constant known.made (known.evaluates [] [])
    refine ⟨literalExpr value, constant,
      equationFilter (String.ofList reference.column.name) constant,
      ⟨parse_cascadeDelete reference notLarge deep,
        parse_cascadeSetNull reference notLarge deep, known.made, parsed, known.evaluates, ?_⟩,
      evaluable_equation known, (answer_equation placed known representable fits).mpr untroubled⟩
    intro held heldFits heldSome
    obtain ⟨-, equals⟩ := compareWith_equal heldFits fits heldSome notNull number
    rw [compareOp_constant known fits heldFits heldSome, ← equals]
    cases held.compareWith value with
    | error error => simp [Except.map]
    | ok ordering => cases ordering <;> simp [Except.map]

end Cascades

/-! ## A child with one row -/

def child (type : ColumnType) : Schema where
  columns := [{ name := "p", type }]
  indexes := [{ columns := [0], root := 7, isBuilding := false }]

def childReference : Reference asciiRules where
  table := ⟨'c', [], by decide, List.forall_mem_singleton.mpr rfl, by decide⟩
  column := ⟨'p', [], by decide, List.forall_mem_singleton.mpr rfl, by decide⟩
  notNull := false
  onDelete := .cascade
  parentPosition := 0

def childRow (value : Value) : Version := { rowid := 1, values := [value], visible := true }

def childTable {type : ColumnType} {value : Value} (fits : value.fits type = true) :
    Table (child type) where
  versions := [childRow value]
  trees := fun _ => [encodeIndexKey [value] [0] 1]
  keyed := List.nodup_singleton _
  typed := by
    intro version stored position column found
    obtain rfl := List.mem_singleton.mp stored
    match position with
    | 0 =>
        cases found
        exact fits
    | _ + 1 => cases found
  indexed := by
    intro index listed _
    obtain rfl := List.mem_singleton.mp listed
    exact List.Perm.refl _

theorem child_placed (type : ColumnType) :
    Placed (child type) (String.ofList childReference.column.name) type 0 :=
  ⟨rfl, List.nodup_singleton _⟩

/-- A row that refers to `5.0` is found by the literal `5`. -/
theorem cascade_acts_five :
    ActsExactly childReference 10 (@childTable .real (.real 0x4014000000000000) rfl) 0 .real
      (.real 0x4014000000000000) := by
  refine (cascade_acts_iff childReference 10 (le_refl 10) _ 0 .real (child_placed .real) _ rfl
    rfl).mpr ⟨?_, ?_⟩
  · have small : (0x4014000000000000 : UInt64) &&& 0x7FFFFFFFFFFFFFFF < TWO_POW_63 := by decide
    exact small
  · intro version stored _
    obtain rfl := List.mem_singleton.mp stored
    exact ⟨fun _ => not_crossed_self _, fun _ => by decide⟩

/-- The row that refers to the least integer stays: its literal is out of range. -/
theorem least_integer_not_deleted :
    Refers (@childTable .int (.int Int64.minValue) rfl) 0 (.int Int64.minValue)
        (childRow (.int Int64.minValue)) ∧
      (∀ depth, ∃ error,
        parseWithin asciiRules depth
            (String.ofList (cascadeDelete childReference (.int Int64.minValue))) =
          .error error) ∧
        ¬ ActsExactly childReference 10
          (@childTable .int (.int Int64.minValue) rfl) 0 .int
          (.int Int64.minValue) := by
  have digits : 2 ^ 63 ≤ Int64.minValue.toInt.natAbs := by decide
  have large : TooLarge (.int Int64.minValue) := digits
  refine ⟨⟨List.mem_singleton_self _, rfl, by decide⟩,
    fun depth => parse_tooLarge childReference large depth, ?_⟩
  rintro ⟨literal, constant, filter, back, -⟩
  obtain ⟨error, failed⟩ := parse_tooLarge childReference large 10
  exact nomatch failed.symm.trans back.deletes

end PrehniteDB.Sql
