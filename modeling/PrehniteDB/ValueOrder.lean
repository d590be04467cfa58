import PrehniteDB.KeyOrder

namespace PrehniteDB

open ReadPaths (ColumnType prefixUpperBound inIndexRange_prefixUpperBound)

/-!
# The order of values

`ORDER BY`, `MIN` and `MAX` compare values by one total order.  On the values of
a column type it is the byte order of their index encodings, and keys of several
columns are compared column by column and then by rowid.
-/

/-- The place of an `f64` in the total order of IEEE 754; every bit pattern has its own. -/
def realTotalPlace (bits : UInt64) : Int :=
  let magnitude : Int := (bits &&& 0x7FFFFFFFFFFFFFFF).toNat
  if bits &&& 0x8000000000000000 ≠ 0 then -magnitude - 1 else magnitude

/-- `f64::total_cmp`. -/
def realTotalCompare (left right : UInt64) : Ordering :=
  compare (realTotalPlace left) (realTotalPlace right)

def valueRank : Value → Nat
  | .null => 0
  | .bool _ => 1
  | .int _ | .real _ => 2
  | .text _ => 3

/-- `NULL` sorts before every other value. -/
def orderValues : Value → Value → Ordering
  | .null, .null => .eq
  | .null, _ => .lt
  | _, .null => .gt
  | .int left, .int right => compare left.toInt right.toInt
  | .real left, .real right => realTotalCompare left right
  | .int left, .real right => realTotalCompare (realOfInt left) right
  | .real left, .int right => realTotalCompare left (realOfInt right)
  | .text left, .text right => Value.textCompare left right
  | .bool left, .bool right => compare left right
  | left, right => compare (valueRank left) (valueRank right)

/-! ## One value -/

theorem SignSplit.totalPlace
    {bits : UInt64}
    {sign : Bool}
    {magnitude : Nat}
    (split : SignSplit bits sign magnitude) :
    realTotalPlace bits = if sign then -(magnitude : Int) - 1 else magnitude := by
  unfold realTotalPlace
  rw [split.low]
  cases sign with
  | true => rw [if_pos (split.sign_ne_zero.mpr rfl), if_pos rfl]
  | false =>
      have clear : ¬ bits &&& 0x8000000000000000 ≠ 0 := fun set =>
        Bool.false_ne_true (split.sign_ne_zero.mp set)
      rw [if_neg clear, if_neg Bool.false_ne_true]

theorem orderedBits_totalPlace (bits : UInt64) :
    ((orderedBits bits).toNat : Int) = realTotalPlace bits + 2 ^ 63 := by
  obtain ⟨sign, magnitude, split⟩ := signSplit bits
  have bound := split.bound
  rw [split.orderedBits, split.totalPlace]
  cases sign with
  | true =>
      simp only [if_true]
      omega
  | false =>
      simp only [Bool.false_eq_true, if_false]
      omega

theorem orderedBits_lt_of_total
    {left right : UInt64}
    (below : realTotalCompare left right = .lt) :
    orderedBits left < orderedBits right := by
  have places : realTotalPlace left < realTotalPlace right := compare_lt_iff_lt.mp below
  have leftPlace := orderedBits_totalPlace left
  have rightPlace := orderedBits_totalPlace right
  rw [UInt64.lt_iff_toNat_lt]
  omega

theorem realTotalCompare_eq
    {left right : UInt64}
    (same : realTotalCompare left right = .eq) :
    left = right := by
  have places : realTotalPlace left = realTotalPlace right := compare_eq_iff_eq.mp same
  have leftPlace := orderedBits_totalPlace left
  have rightPlace := orderedBits_totalPlace right
  refine orderedBits_injective (UInt64.toNat_inj.mp ?_)
  omega

theorem realTotalCompare_swap (left right : UInt64) :
    realTotalCompare right left = (realTotalCompare left right).swap :=
  (Std.OrientedCmp.eq_swap : compare (realTotalPlace right) (realTotalPlace left) = _)

theorem orderValues_self (value : Value) : orderValues value value = .eq := by
  cases value with
  | null => rfl
  | int number => exact compare_eq_iff_eq.mpr rfl
  | real bits => exact compare_eq_iff_eq.mpr rfl
  | text string => simp [orderValues, Value.textCompare]
  | bool truth => cases truth <;> rfl

theorem orderValues_swap (left right : Value) :
    orderValues right left = (orderValues left right).swap := by
  cases left <;> cases right <;> try { rfl }
  case int.int left right =>
    exact (Std.OrientedCmp.eq_swap : compare right.toInt left.toInt = _)
  case int.real => exact realTotalCompare_swap _ _
  case real.int => exact realTotalCompare_swap _ _
  case real.real => exact realTotalCompare_swap _ _
  case text.text => exact Value.textCompare_swap _ _
  case bool.bool left right => exact (Std.OrientedCmp.eq_swap : compare right left = _)

section Typed

variable {type : ColumnType} {left right : Value}

/-- What is smaller has the smaller encoding, whatever follows the two. -/
theorem orderValues_lt
    (leftFits : left.fits type = true)
    (rightFits : right.fits type = true)
    (below : orderValues left right = .lt)
    (leftRest rightRest : List UInt8) :
    encodeIndexValue left ++ leftRest < encodeIndexValue right ++ rightRest := by
  cases type <;> cases left <;> cases right <;>
    simp only [Value.fits, Bool.false_eq_true] at leftFits rightFits <;>
    simp only [orderValues, reduceCtorEq] at below
  case int.int.int first second =>
    simp only [encodeIndexValue, List.cons_append, List.cons_lt_cons_iff]
    exact Or.inr ⟨trivial, bigEndian_lt (sign_flip_lt (compare_lt_iff_lt.mp below)) _ _⟩
  case real.real.real first second =>
    simp only [encodeIndexValue, List.cons_append, List.cons_lt_cons_iff]
    exact Or.inr ⟨trivial, bigEndian_lt (orderedBits_lt_of_total below) _ _⟩
  case text.text.text first second =>
    simp only [encodeIndexValue, List.cons_append, List.cons_lt_cons_iff]
    exact Or.inr ⟨trivial, escapeText_lt (Value.textCompare_lt below) _ _⟩
  case bool.bool.bool first second =>
    cases first <;> cases second <;>
      simp [encodeIndexValue, List.cons_lt_cons_iff] at below ⊢
  all_goals
    simp [encodeIndexValue, List.cons_lt_cons_iff]

theorem orderValues_eq
    (leftFits : left.fits type = true)
    (rightFits : right.fits type = true)
    (same : orderValues left right = .eq) :
    left = right := by
  cases type <;> cases left <;> cases right <;>
    simp only [Value.fits, Bool.false_eq_true] at leftFits rightFits <;>
    simp only [orderValues, reduceCtorEq] at same
  case int.int.int first second =>
    exact congrArg _ (Int64.toInt_inj.mp (compare_eq_iff_eq.mp same))
  case real.real.real first second =>
    exact congrArg _ (realTotalCompare_eq same)
  case text.text.text first second =>
    exact congrArg _ (Value.textCompare_eq same)
  case bool.bool.bool first second =>
    cases first <;> cases second <;> first | rfl | simp at same
  all_goals rfl

end Typed

/-! ## Tuples -/

/-- The values of the columns of an index, in index order. -/
def indexTuple (values : List Value) (columns : List Nat) : List Value :=
  columns.map (column values)

/-- Tuples column by column. -/
def orderTuples : List Value → List Value → Ordering :=
  List.compareLex orderValues

/-- Byte strings, as the tree compares its keys. -/
def compareKeys : List UInt8 → List UInt8 → Ordering :=
  List.compareLex compare

theorem compareKeys_lt_iff {left right : List UInt8} :
    compareKeys left right = .lt ↔ left < right := by
  induction left generalizing right with
  | nil => cases right <;> simp [compareKeys, List.compareLex]
  | cons byte rest inductionHypothesis =>
      cases right with
      | nil => simp [compareKeys, List.compareLex]
      | cons head tail =>
          have deeper := @inductionHypothesis tail
          rw [compareKeys] at deeper
          rw [compareKeys, List.compareLex_cons_cons, Ordering.then_eq_lt, deeper,
            Std.compare_eq_lt, Std.compare_eq_iff_eq, List.cons_lt_cons_iff]

theorem compareKeys_swap (left right : List UInt8) :
    compareKeys right left = (compareKeys left right).swap := by
  induction left generalizing right with
  | nil => cases right <;> rfl
  | cons byte rest inductionHypothesis =>
      cases right with
      | nil => rfl
      | cons head tail =>
          rw [compareKeys, List.compareLex_cons_cons, List.compareLex_cons_cons,
            Ordering.swap_then]
          exact congrArg₂ _ Std.OrientedCmp.eq_swap (inductionHypothesis tail)

theorem compareKeys_gt_iff {left right : List UInt8} :
    compareKeys left right = .gt ↔ right < left := by
  rw [← compareKeys_lt_iff, compareKeys_swap left right]
  cases compareKeys left right <;> simp

theorem compareKeys_append (shared left right : List UInt8) :
    compareKeys (shared ++ left) (shared ++ right) = compareKeys left right := by
  induction shared with
  | nil => rfl
  | cons byte rest inductionHypothesis =>
      rw [List.cons_append, List.cons_append, compareKeys, List.compareLex_cons_cons,
        Std.compare_self]
      exact inductionHypothesis

theorem compareKeys_rowid (left right : UInt64) :
    compareKeys (rowidKey left.toNat) (rowidKey right.toNat) = compare left right := by
  rw [rowidKey, rowidKey, UInt64.ofNat_toNat, UInt64.ofNat_toNat]
  have less {first second : UInt64} (below : first < second) :
      compareKeys (bigEndian first) (bigEndian second) = .lt := by
    have bytes := bigEndian_lt below [] []
    rw [List.append_nil, List.append_nil] at bytes
    exact compareKeys_lt_iff.mpr bytes
  cases compared : compare left right with
  | lt => exact less (Std.compare_eq_lt.mp compared)
  | gt =>
      rw [compareKeys_swap, less (Std.compare_eq_gt.mp compared)]
      rfl
  | eq =>
      have same := compareKeys_append (bigEndian left) [] []
      rw [List.append_nil] at same
      rw [← Std.compare_eq_iff_eq.mp compared, same]
      rfl

theorem compareKeys_tuples
    {types : List ColumnType}
    {left right : List Value}
    (leftTyped : List.Forall₂ (fun type value => Value.fits type value = true) types left)
    (rightTyped : List.Forall₂ (fun type value => Value.fits type value = true) types right)
    (leftRest rightRest : List UInt8) :
    compareKeys (left.flatMap encodeIndexValue ++ leftRest)
        (right.flatMap encodeIndexValue ++ rightRest) =
      (orderTuples left right).then (compareKeys leftRest rightRest) := by
  induction leftTyped generalizing right with
  | nil =>
      cases rightTyped
      rfl
  | @cons type value types left fits typed inductionHypothesis =>
      cases rightTyped with
      | @cons _ other _ right otherFits otherTyped =>
          rw [List.flatMap_cons, List.flatMap_cons, List.append_assoc, List.append_assoc,
            orderTuples, List.compareLex_cons_cons]
          cases compared : orderValues value other with
          | lt => exact compareKeys_lt_iff.mpr (orderValues_lt fits otherFits compared _ _)
          | gt =>
              have swapped : orderValues other value = .lt := by
                rw [orderValues_swap, compared]
                rfl
              rw [compareKeys_swap,
                compareKeys_lt_iff.mpr (orderValues_lt otherFits fits swapped _ _)]
              rfl
          | eq =>
              rw [orderValues_eq fits otherFits compared, compareKeys_append]
              exact inductionHypothesis otherTyped

theorem orderValues_eq_compareKeys
    {type : ColumnType}
    {value other : Value}
    (fits : Value.fits type value = true)
    (otherFits : Value.fits type other = true) :
    orderValues value other = compareKeys (encodeIndexValue value) (encodeIndexValue other) := by
  have tuples :=
    @compareKeys_tuples [type] [value] [other] (.cons fits .nil) (.cons otherFits .nil) [] []
  simp only [List.flatMap_cons, List.flatMap_nil, List.append_nil] at tuples
  rw [tuples, orderTuples, List.compareLex_cons_cons]
  cases orderValues value other <;> rfl

theorem orderValues_trans
    {type : ColumnType}
    {want : Ordering}
    {value middle other : Value}
    (fits : Value.fits type value = true)
    (middleFits : Value.fits type middle = true)
    (otherFits : Value.fits type other = true)
    (first : orderValues value middle = want)
    (second : orderValues middle other = want)
    (strict : want ≠ .eq) :
    orderValues value other = want := by
  rw [orderValues_eq_compareKeys fits middleFits] at first
  rw [orderValues_eq_compareKeys middleFits otherFits] at second
  rw [orderValues_eq_compareKeys fits otherFits]
  cases want with
  | eq => exact absurd rfl strict
  | lt =>
      exact compareKeys_lt_iff.mpr
        (List.lt_trans (compareKeys_lt_iff.mp first) (compareKeys_lt_iff.mp second))
  | gt =>
      exact compareKeys_gt_iff.mpr
        (List.lt_trans (compareKeys_gt_iff.mp second) (compareKeys_gt_iff.mp first))

theorem column_fits (types : List ColumnType) (position : Nat) :
    ∃ type, ∀ row,
      List.Forall₂ (fun type value => Value.fits type value = true) types row →
        Value.fits type (column row position) = true := by
  cases placed : types[position]? with
  | some type =>
      refine ⟨type, fun row typed => ?_⟩
      induction typed generalizing position with
      | nil => cases placed
      | @cons first value rest values fits typed inductionHypothesis =>
          cases position with
          | zero =>
              cases placed
              exact fits
          | succ earlier => exact inductionHypothesis earlier placed
  | none =>
      refine ⟨.int, fun row typed => ?_⟩
      have short : row[position]? = none := by
        rw [List.getElem?_eq_none_iff, ← typed.length_eq]
        exact List.getElem?_eq_none_iff.mp placed
      rw [column, List.getD_eq_getElem?_getD, short]
      rfl

theorem flatMap_encode_append_inj
    {left right : List Value}
    {later other : List UInt8}
    (sized : left.length = right.length)
    (same :
      left.flatMap encodeIndexValue ++ later = right.flatMap encodeIndexValue ++ other) :
    left = right ∧ later = other := by
  induction left generalizing right with
  | nil =>
      cases right with
      | nil => exact ⟨rfl, same⟩
      | cons head tail => cases sized
  | cons value rest inductionHypothesis =>
      cases right with
      | nil => cases sized
      | cons head tail =>
          rw [List.flatMap_cons, List.flatMap_cons, List.append_assoc,
            List.append_assoc] at same
          obtain ⟨rfl, deeper⟩ := encodeIndexValue_append_inj same
          obtain ⟨rfl, rests⟩ := inductionHypothesis (Nat.succ.inj sized) deeper
          exact ⟨rfl, rests⟩

theorem encodeIndexKey_eq (values : List Value) (columns : List Nat) (rowid : Nat) :
    encodeIndexKey values columns rowid =
      (indexTuple values columns).flatMap encodeIndexValue ++ rowidKey rowid := by
  rw [encodeIndexKey, encodeIndexValuePrefix, indexTuple, List.flatMap_map]

/--
Index keys compare as their tuples do and then as their rowids, no two tuples
share a key, and the keys that start with some bytes are those between the bytes
and their upper bound.
-/
theorem index_keys_ordered
    {types : List ColumnType}
    {columns : List Nat}
    {left right : List Value}
    (leftRowid rightRowid : UInt64)
    (leftTyped :
      List.Forall₂ (fun type value => Value.fits type value = true) types
        (indexTuple left columns))
    (rightTyped :
      List.Forall₂ (fun type value => Value.fits type value = true) types
        (indexTuple right columns)) :
    compareKeys (encodeIndexKey left columns leftRowid.toNat)
        (encodeIndexKey right columns rightRowid.toNat) =
      (orderTuples (indexTuple left columns) (indexTuple right columns)).then
        (compare leftRowid rightRowid) ∧
    (encodeIndexKey left columns leftRowid.toNat =
        encodeIndexKey right columns rightRowid.toNat ↔
      indexTuple left columns = indexTuple right columns ∧ leftRowid = rightRowid) ∧
    ∀ bytes key : List UInt8, bytes ≠ [] →
      (bytes <+: key ↔
        compareKeys bytes key ≠ .gt ∧
          ∀ bound, prefixUpperBound bytes = some bound →
            compareKeys key bound = .lt) := by
  have sized : (indexTuple left columns).length = (indexTuple right columns).length := by
    rw [indexTuple, indexTuple, List.length_map, List.length_map]
  rw [encodeIndexKey_eq, encodeIndexKey_eq]
  refine ⟨?_, ⟨fun same => ?_, fun ⟨tuples, rowids⟩ => by rw [tuples, rowids]⟩, ?_⟩
  · rw [compareKeys_tuples leftTyped rightTyped, compareKeys_rowid]
  · obtain ⟨tuples, rowids⟩ := flatMap_encode_append_inj sized same
    rw [rowidKey, rowidKey, UInt64.ofNat_toNat, UInt64.ofNat_toNat] at rowids
    exact ⟨tuples, bigEndian_injective rowids⟩
  · intro bytes key _
    rw [← inIndexRange_prefixUpperBound, inIndexRange]
    cases prefixUpperBound bytes <;> simp [compareKeys_lt_iff, compareKeys_gt_iff]

/-- Two texts, one a prefix of the other behind a zero byte, and the zeros of either sign. -/
theorem index_keys_ordered_zeros :
    compareKeys
        (encodeIndexKey [.text "a", .real 0x8000000000000000] [1, 0] 9)
        (encodeIndexKey [.text "a\x00", .real 0] [1, 0] 2) =
      (orderTuples [.real 0x8000000000000000, .text "a"] [.real 0, .text "a\x00"]).then .gt :=
  (@index_keys_ordered [.real, .text] [1, 0] [.text "a", .real 0x8000000000000000]
    [.text "a\x00", .real 0] 9 2 (.cons rfl (.cons rfl .nil)) (.cons rfl (.cons rfl .nil))).1

end PrehniteDB
