import PrehniteDB.AccessPaths

namespace PrehniteDB.AccessPaths

open ReadPaths (ColumnType prefixUpperBound inIndexRange_prefixUpperBound)

/-!
# An index scan reaches every row the predicate accepts

Except where a `REAL` zero is sought under one sign and stored under the other:
the comparison takes the two for equal and the encodings differ.
-/

/-! ## Ranges behind a common prefix -/

theorem append_le_append_iff
    {shared left right : List UInt8} :
    shared ++ left ≤ shared ++ right ↔ left ≤ right := by
  induction shared with
  | nil => exact Iff.rfl
  | cons byte rest inductionHypothesis =>
      rw [List.cons_append, List.cons_append, List.cons_le_cons_iff]
      simpa using inductionHypothesis

theorem append_lt_append_iff
    {shared left right : List UInt8} :
    shared ++ left < shared ++ right ↔ left < right := by
  induction shared with
  | nil => exact Iff.rfl
  | cons byte rest inductionHypothesis =>
      rw [List.cons_append, List.cons_append, List.cons_lt_cons_iff]
      simpa using inductionHypothesis

theorem prefix_of_between
    {shared left right key : List UInt8}
    (above : shared ++ left ≤ key)
    (below : key < shared ++ right) :
    shared <+: key := by
  induction shared generalizing key with
  | nil => exact List.nil_prefix
  | cons byte rest inductionHypothesis =>
      cases key with
      | nil => simp at above
      | cons head tail =>
          rw [List.cons_append, List.cons_le_cons_iff] at above
          rw [List.cons_append, List.cons_lt_cons_iff] at below
          rw [List.cons_prefix_cons]
          rcases above with lower | ⟨same, lower⟩
          · rcases below with upper | ⟨same, _⟩
            · exact absurd (UInt8.lt_trans lower upper) (UInt8.lt_irrefl _)
            · exact absurd (same ▸ lower) (UInt8.lt_irrefl _)
          · rcases below with upper | ⟨_, upper⟩
            · exact absurd (same ▸ upper) (UInt8.lt_irrefl _)
            · exact ⟨same, inductionHypothesis lower upper⟩

/-! ## The range of a plan -/

namespace Bounds

/-- The lower end behind the pinned prefix. -/
def lowerTail (bounds : Bounds) : Option (List UInt8) :=
  match bounds.lower with
  | none => some []
  | some (value, true) => some (encodeIndexValue value)
  | some (value, false) => prefixUpperBound (encodeIndexValue value)

theorem lowerKey_eq (bounds : Bounds) :
    bounds.lowerKey = bounds.lowerTail.map (bounds.pinnedPrefix ++ ·) := by
  unfold lowerKey lowerTail
  rcases bounds.lower with _ | ⟨value, inclusive⟩
  · simp
  · cases inclusive <;> simp

/-- The column behind the pinned ones is below its upper end. -/
def Below (bounds : Bounds) (tail : List UInt8) : Prop :=
  match bounds.upper with
  | none => True
  | some (value, true) =>
      ∀ bound ∈ prefixUpperBound (encodeIndexValue value), tail < bound
  | some (value, false) => tail < encodeIndexValue value

/-- A key is in the range when it is neither below nor behind it. -/
theorem inIndexRange_iff
    {bounds : Bounds}
    {lowerTail lower key : List UInt8}
    {upper : Option (List UInt8)}
    (ends : bounds.lowerTail = some lowerTail)
    (lowerEnd : bounds.lowerKey = some lower)
    (upperEnd : bounds.upperKey = some upper) :
    inIndexRange lower upper key = true ↔
      ∃ tail, key = bounds.pinnedPrefix ++ tail ∧ lowerTail ≤ tail ∧ bounds.Below tail := by
  rw [lowerKey_eq, ends] at lowerEnd
  obtain rfl := Option.some.inj lowerEnd
  unfold upperKey at upperEnd
  unfold Below
  have bounded (bound : List UInt8) :
      inIndexRange (bounds.pinnedPrefix ++ lowerTail) (some (bounds.pinnedPrefix ++ bound)) key =
          true ↔
        ∃ tail, key = bounds.pinnedPrefix ++ tail ∧ lowerTail ≤ tail ∧ tail < bound := by
    simp only [inIndexRange, Option.all_some, Bool.and_eq_true, decide_eq_true_eq]
    constructor
    · rintro ⟨above, below⟩
      obtain ⟨tail, rfl⟩ := prefix_of_between above below
      exact ⟨tail, rfl, append_le_append_iff.mp above, append_lt_append_iff.mp below⟩
    · rintro ⟨tail, rfl, above, below⟩
      exact ⟨append_le_append_iff.mpr above, append_lt_append_iff.mpr below⟩
  split at upperEnd
  case h_1 value found =>
    obtain ⟨bound, stepped, rfl⟩ := Option.map_eq_some_iff.mp upperEnd
    rw [bounded]
    simp [found, stepped]
  case h_2 value found =>
    obtain rfl := Option.some.inj upperEnd
    rw [bounded]
    simp [found]
  case h_3 open_ =>
    rw [open_]
    simp only [and_true]
    by_cases pinned : bounds.pins = []
    · have empty : bounds.pinnedPrefix = [] := by simp [pinnedPrefix, pinned]
      rw [if_neg (not_not.mpr pinned)] at upperEnd
      obtain rfl := Option.some.inj upperEnd
      simp [inIndexRange, empty]
    · rw [if_pos pinned] at upperEnd
      obtain rfl := Option.some.inj upperEnd
      have grouped := inIndexRange_prefixUpperBound bounds.pinnedPrefix key
      simp only [inIndexRange, Bool.and_eq_true, decide_eq_true_eq] at grouped ⊢
      constructor
      · rintro ⟨above, below⟩
        have start : bounds.pinnedPrefix ≤ key := by
          refine List.le_trans ?_ above
          simpa using @append_le_append_iff bounds.pinnedPrefix [] lowerTail
        obtain ⟨tail, rfl⟩ := grouped.mp ⟨start, below⟩
        exact ⟨tail, rfl, append_le_append_iff.mp above⟩
      · rintro ⟨tail, rfl, above⟩
        exact ⟨append_le_append_iff.mpr above, (grouped.mpr (List.prefix_append _ _)).2⟩

end Bounds

/-! ## The two ends of a column's range -/

/-- The negative zero and the positive one. -/
def MinusPlus (low high : Value) : Prop :=
  low = .real 0x8000000000000000 ∧ high = .real 0

instance (low high : Value) : Decidable (MinusPlus low high) :=
  inferInstanceAs (Decidable (_ ∧ _))

theorem realIsZero_cases
    {bits : UInt64}
    (zero : realIsZero bits = true) :
    bits = 0 ∨ bits = 0x8000000000000000 := by
  obtain ⟨sign, magnitude, split⟩ := signSplit bits
  have low := split.low
  rw [of_decide_eq_true zero] at low
  have none : magnitude = 0 := low.symm
  have whole := split.whole
  rw [none] at whole
  cases sign with
  | true => exact Or.inr (UInt64.toNat_inj.mp whole)
  | false => exact Or.inl (UInt64.toNat_inj.mp whole)

theorem crossed_iff {left right : Value} :
    left.Crossed right ↔ MinusPlus left right ∨ MinusPlus right left := by
  constructor
  · intro crossed
    cases left <;> cases right <;> try exact crossed.elim
    case real.real first second =>
      obtain ⟨firstZero, secondZero, different⟩ := crossed
      rcases realIsZero_cases firstZero with rfl | rfl <;>
        rcases realIsZero_cases secondZero with rfl | rfl
      · exact absurd rfl different
      · exact Or.inr ⟨rfl, rfl⟩
      · exact Or.inl ⟨rfl, rfl⟩
      · exact absurd rfl different
  · rintro (⟨rfl, rfl⟩ | ⟨rfl, rfl⟩)
    · exact ⟨by decide, by decide, by decide⟩
    · exact ⟨by decide, by decide, by decide⟩

theorem MinusPlus.encode_lt
    {low high : Value}
    (zeros : MinusPlus low high)
    (lowRest highRest : List UInt8) :
    encodeIndexValue low ++ lowRest < encodeIndexValue high ++ highRest := by
  obtain ⟨rfl, rfl⟩ := zeros
  simp only [encodeIndexValue, List.cons_append, List.cons_lt_cons_iff]
  exact Or.inr ⟨trivial, bigEndian_lt (by decide) _ _⟩

theorem MinusPlus.compare
    {low high : Value}
    (zeros : MinusPlus low high) :
    low.compareWith high = .ok .eq := by
  obtain ⟨rfl, rfl⟩ := zeros
  rfl

theorem below_bound_iff
    {value : Value}
    {bound key : List UInt8}
    (bounded : prefixUpperBound (encodeIndexValue value) = some bound)
    (above : encodeIndexValue value ≤ key) :
    key < bound ↔ encodeIndexValue value <+: key := by
  have grouped := inIndexRange_prefixUpperBound (encodeIndexValue value) key
  rw [bounded] at grouped
  simpa [inIndexRange, above] using grouped

section Ends

variable
  {type : ColumnType}
  {held value : Value}
  {tail bound : List UInt8}

/-- `col >= value` reads the held value unless it is the negative zero and the literal is not. -/
theorem inclusive_lower_iff
    (heldFits : held.fits type = true)
    (valueFits : value.fits type = true)
    {ordering : Ordering}
    (compared : held.compareWith value = .ok ordering)
    (accepted : ordering ≠ .lt) :
    encodeIndexValue value ≤ encodeIndexValue held ++ tail ↔ ¬ MinusPlus held value := by
  cases ordering with
  | lt => exact absurd rfl accepted
  | gt =>
      have below := Value.encode_lt valueFits heldFits (Value.compareWith_swap compared) [] tail
      rw [List.append_nil] at below
      refine iff_of_true (List.le_of_lt below) fun zeros => ?_
      exact nomatch compared.symm.trans zeros.compare
  | eq =>
      rcases Value.compareWith_eq heldFits valueFits compared with rfl | crossed
      · refine iff_of_true ?_ fun zeros => ?_
        · simpa using @append_le_append_iff (encodeIndexValue held) [] tail
        · exact nomatch zeros.1.symm.trans zeros.2
      · rcases crossed_iff.mp crossed with zeros | zeros
        · have below := zeros.encode_lt tail []
          rw [List.append_nil] at below
          exact iff_of_false (List.not_le.mpr below) (not_not.mpr zeros)
        · have below := zeros.encode_lt [] tail
          rw [List.append_nil] at below
          refine iff_of_true (List.le_of_lt below) fun other => ?_
          exact nomatch other.1.symm.trans zeros.2

/-- `col > value` reads every value that is greater. -/
theorem exclusive_lower
    (heldFits : held.fits type = true)
    (valueFits : value.fits type = true)
    (compared : held.compareWith value = .ok .gt)
    (bounded : prefixUpperBound (encodeIndexValue value) = some bound) :
    bound ≤ encodeIndexValue held ++ tail := by
  have swapped := Value.compareWith_swap compared
  have below := Value.encode_lt valueFits heldFits swapped [] tail
  rw [List.append_nil] at below
  refine List.not_lt.mp fun inside => ?_
  have starts := (below_bound_iff bounded (List.le_of_lt below)).mp inside
  obtain rfl := encodeIndexValue_isPrefix_iff.mp starts
  exact nomatch compared.symm.trans swapped

/-- `col <= value` reads the held value unless it is the positive zero and the literal is not. -/
theorem inclusive_upper_iff
    (heldFits : held.fits type = true)
    (valueFits : value.fits type = true)
    {ordering : Ordering}
    (compared : held.compareWith value = .ok ordering)
    (accepted : ordering ≠ .gt)
    (bounded : prefixUpperBound (encodeIndexValue value) = some bound) :
    encodeIndexValue held ++ tail < bound ↔ ¬ MinusPlus value held := by
  have start : encodeIndexValue value < bound :=
    (below_bound_iff bounded (List.le_refl _)).mpr (List.prefix_refl _)
  cases ordering with
  | gt => exact absurd rfl accepted
  | lt =>
      have below := Value.encode_lt heldFits valueFits compared tail []
      rw [List.append_nil] at below
      refine iff_of_true (List.lt_trans below start) fun zeros => ?_
      exact nomatch (Value.compareWith_swap compared).symm.trans zeros.compare
  | eq =>
      rcases Value.compareWith_eq heldFits valueFits compared with rfl | crossed
      · refine iff_of_true ?_ fun zeros => ?_
        · refine (below_bound_iff bounded ?_).mpr (List.prefix_append _ _)
          simpa using @append_le_append_iff (encodeIndexValue held) [] tail
        · exact nomatch zeros.1.symm.trans zeros.2
      · rcases crossed_iff.mp crossed with zeros | zeros
        · have below := zeros.encode_lt tail []
          rw [List.append_nil] at below
          refine iff_of_true (List.lt_trans below start) fun other => ?_
          exact nomatch other.1.symm.trans zeros.2
        · have below := zeros.encode_lt [] tail
          rw [List.append_nil] at below
          refine iff_of_false (fun inside => ?_) (not_not.mpr zeros)
          have starts := (below_bound_iff bounded (List.le_of_lt below)).mp inside
          obtain rfl := encodeIndexValue_isPrefix_iff.mp starts
          exact nomatch zeros.1.symm.trans zeros.2

/-- `col < value` reads every value that is smaller. -/
theorem exclusive_upper
    (heldFits : held.fits type = true)
    (valueFits : value.fits type = true)
    (compared : held.compareWith value = .ok .lt) :
    encodeIndexValue held ++ tail < encodeIndexValue value := by
  have below := Value.encode_lt heldFits valueFits compared tail []
  rwa [List.append_nil] at below

end Ends

/-! ## What the accepted rows say -/

namespace PredKind

def value : PredKind → Value
  | .eq value | .lower value _ | .upper value _ => value

def op : PredKind → ComparisonOp
  | .eq _ => .eq
  | .lower _ inclusive => if inclusive then .gtEq else .gt
  | .upper _ inclusive => if inclusive then .ltEq else .lt

/-- The held value stands in the relation to the literal. -/
def Holds (kind : PredKind) (held : Value) : Prop :=
  ∃ ordering, held.compareWith kind.value = .ok ordering ∧ kind.op.accepts ordering = true

end PredKind

/-- The predicate holds where the comparison is true. -/
theorem predKind_spec
    {value : Value}
    {op : ComparisonOp}
    {kind : PredKind}
    (made : predKind value op = some kind) :
    kind.value = value ∧ kind.op = op := by
  cases op <;> cases made <;> exact ⟨rfl, rfl⟩

theorem flipOp_accepts (op : ComparisonOp) (ordering : Ordering) :
    (flipOp op).accepts ordering.swap = op.accepts ordering := by
  cases op <;> cases ordering <;> rfl

theorem compareOp_true
    {op : ComparisonOp}
    {left right : Value}
    (verdict : compareOp op left right = .ok (.bool true)) :
    ∃ ordering, left.compareWith right = .ok ordering ∧ op.accepts ordering = true := by
  unfold compareOp at verdict
  split at verdict
  case isTrue => cases verdict
  case isFalse =>
    cases compared : left.compareWith right with
    | error error => rw [compared] at verdict; cases verdict
    | ok ordering =>
        rw [compared] at verdict
        simp only [Except.map, Except.ok.injEq, Value.bool.injEq] at verdict
        exact ⟨ordering, rfl, verdict⟩

variable
  {Query : Type}
  {schema : Schema}
  {qualifier : String}
  {values : List Value}

theorem eval_literal
    {scope : Scope}
    {expr : Expr Query}
    {literal : Value}
    (found : literalValue expr = some literal) :
    eval scope values expr = .ok literal := by
  cases expr <;> cases found <;> rfl

theorem eval_binary_ok
    {scope : Scope}
    {op : BinaryOp}
    {left right : Expr Query}
    {result : Value}
    (evaluated : eval scope values (.binary op left right) = .ok result) :
    ∃ leftValue rightValue,
      eval scope values left = .ok leftValue ∧
        eval scope values right = .ok rightValue ∧
          evalBinary op leftValue rightValue = .ok result := by
  rw [eval] at evaluated
  cases first : eval scope values left with
  | error error => rw [first] at evaluated; cases evaluated
  | ok leftValue =>
      rw [first] at evaluated
      cases second : eval scope values right with
      | error error => rw [second] at evaluated; cases evaluated
      | ok rightValue =>
          rw [second] at evaluated
          exact ⟨leftValue, rightValue, rfl, rfl, evaluated⟩

theorem eval_column_ok
    {scope : Scope}
    {ref : ColumnRef}
    {held : Value}
    (evaluated : eval scope values (.column ref : Expr Query) = .ok held) :
    ∃ index, scope.resolve ref = .ok index ∧ held = column values index := by
  rw [eval] at evaluated
  cases resolved : scope.resolve ref with
  | error error => rw [resolved] at evaluated; cases evaluated
  | ok index =>
      rw [resolved] at evaluated
      cases evaluated
      exact ⟨index, rfl, rfl⟩

theorem orient_holds
    {scope : Scope}
    {op oriented : ComparisonOp}
    {left right : Expr Query}
    {ref : ColumnRef}
    {literal : Value}
    (found : orient op left right = some (ref, literal, oriented))
    (accepted :
      eval scope values (.binary (.comparison op) left right) = .ok (.bool true)) :
    ∃ index ordering,
      scope.resolve ref = .ok index ∧
        (column values index).compareWith literal = .ok ordering ∧
          oriented.accepts ordering = true := by
  obtain ⟨leftValue, rightValue, evalLeft, evalRight, verdict⟩ := eval_binary_ok accepted
  obtain ⟨ordering, compared, accepts⟩ := compareOp_true verdict
  unfold orient at found
  split at found
  case h_1 =>
    obtain ⟨value, literalFound, same⟩ := Option.map_eq_some_iff.mp found
    cases same
    obtain ⟨index, resolved, rfl⟩ := eval_column_ok evalLeft
    obtain rfl := Except.ok.inj ((eval_literal literalFound).symm.trans evalRight)
    exact ⟨index, ordering, resolved, compared, accepts⟩
  case h_2 =>
    obtain ⟨value, literalFound, same⟩ := Option.map_eq_some_iff.mp found
    cases same
    obtain ⟨index, resolved, rfl⟩ := eval_column_ok evalRight
    obtain rfl := Except.ok.inj ((eval_literal literalFound).symm.trans evalLeft)
    refine ⟨index, ordering.swap, resolved, Value.compareWith_swap compared, ?_⟩
    rw [flipOp_accepts]
    exact accepts
  case h_3 => cases found

/-- Coercion to the column's type changes no comparison with what the column holds. -/
theorem coerce_compare
    {literal value held : Value}
    {type : ColumnType}
    {ordering : Ordering}
    (coerced : coerce literal type = .ok value)
    (fits : held.fits type = true)
    (compared : held.compareWith literal = .ok ordering) :
    held.compareWith value = .ok ordering ∧ value.fits type = true := by
  cases literal <;> cases type <;> cases coerced <;>
    try { exact ⟨compared, rfl⟩ }
  case int.real number =>
    refine ⟨?_, rfl⟩
    cases held <;> try { cases fits }
    case null => simp [Value.compareWith, Value.isNumber] at compared
    case real bits =>
      rw [Value.compareWith_numbers rfl rfl (by rintro _ _ ⟨⟨⟩, _⟩)] at compared ⊢
      exact compared

theorem resolve_columnIndex
    {ref : ColumnRef}
    {index position : Nat}
    (resolved : (schema.scope qualifier).resolve ref = .ok index)
    (found : schema.columnIndex ref.name = some position) :
    index = position := by
  obtain ⟨entry, placed, names⟩ := Scope.resolve_names resolved
  have table : entry.table = qualifier := by
    simp only [Schema.scope, List.getElem?_map, Option.map_eq_some_iff] at placed
    obtain ⟨_, _, rfl⟩ := placed
    rfl
  obtain ⟨inside, named, _⟩ := List.findIdx?_eq_some_iff_getElem.mp found
  have listed : position ∈ (schema.scope qualifier).findIdxs ref.names := by
    refine List.mem_findIdxs_iff_exists_getElem_pos.mpr
      ⟨by simpa [Schema.scope] using inside, ?_⟩
    simp only [ColumnRef.names, table, Bool.and_eq_true] at names
    simp only [ColumnRef.names, Schema.scope, List.getElem_map, Bool.and_eq_true]
    exact ⟨names.1, named⟩
  rw [Scope.resolve_ok_iff.mp resolved] at listed
  exact (List.mem_singleton.mp listed).symm

/-- A classified conjunct that the row meets says so of the column it names. -/
theorem classify_holds
    {expr : Expr Query}
    {predicate : ColumnPredicate}
    (typed :
      ∀ position column,
        schema.columns[position]? = some column →
          (PrehniteDB.column values position).fits column.type = true)
    (found : classify schema expr = some predicate)
    (accepted : eval (schema.scope qualifier) values expr = .ok (.bool true)) :
    ∃ column,
      schema.columns[predicate.column]? = some column ∧
        predicate.kind.value.fits column.type = true ∧
          predicate.kind.Holds (PrehniteDB.column values predicate.column) := by
  unfold classify at found
  split at found
  case h_1 op left right =>
    obtain ⟨⟨ref, literal, oriented⟩, turned, located⟩ := Option.bind_eq_some_iff.mp found
    obtain ⟨position, placed, typing⟩ := Option.bind_eq_some_iff.mp located
    obtain ⟨type, typeFound, coercing⟩ := Option.bind_eq_some_iff.mp typing
    obtain ⟨value, coerced, finished⟩ := Option.bind_eq_some_iff.mp coercing
    obtain ⟨column, columnFound, rfl⟩ := Option.map_eq_some_iff.mp typeFound
    obtain ⟨index, ordering, resolved, compared, accepts⟩ := orient_holds turned accepted
    obtain rfl := resolve_columnIndex resolved placed
    split at finished
    case isTrue => cases finished
    case isFalse =>
      obtain ⟨kind, made, rfl⟩ := Option.map_eq_some_iff.mp finished
      obtain ⟨valueEq, opEq⟩ := predKind_spec made
      have coercedOk : coerce literal column.type = .ok value := by
        cases outcome : coerce literal column.type with
        | error error => rw [outcome] at coerced; cases coerced
        | ok other =>
            rw [outcome] at coerced
            exact congrArg _ (Option.some.inj coerced)
      obtain ⟨same, valueFits⟩ :=
        coerce_compare coercedOk (typed index column columnFound) compared
      refine ⟨column, columnFound, valueEq ▸ valueFits, ordering, valueEq ▸ same, ?_⟩
      rw [opEq]
      exact accepts
  case h_2 => cases found

theorem logic_and_true
    {left right : Value}
    (verdict : logic .and left right = .ok (.bool true)) :
    left = .bool true ∧ right = .bool true := by
  unfold logic at verdict
  cases leftTruth : left.asBool with
  | error error => rw [leftTruth] at verdict; cases verdict
  | ok leftBool =>
      rw [leftTruth] at verdict
      cases rightTruth : right.asBool with
      | error error => rw [rightTruth] at verdict; cases verdict
      | ok rightBool =>
          rw [rightTruth] at verdict
          have applied : LogicOp.and.apply leftBool rightBool = .bool true :=
            Except.ok.inj verdict
          have truths : leftBool = some true ∧ rightBool = some true := by
            rcases leftBool with _ | ⟨_ | _⟩ <;> rcases rightBool with _ | ⟨_ | _⟩ <;>
              first | exact ⟨rfl, rfl⟩ | cases applied
          rw [truths.1] at leftTruth
          rw [truths.2] at rightTruth
          cases left <;> cases leftTruth
          cases right <;> cases rightTruth
          exact ⟨rfl, rfl⟩

theorem collectConjuncts_true
    {scope : Scope}
    {filter : Expr Query}
    (accepted : eval scope values filter = .ok (.bool true)) :
    ∀ conjunct ∈ collectConjuncts filter, eval scope values conjunct = .ok (.bool true) := by
  induction filter using collectConjuncts.induct with
  | case1 left right leftHypothesis rightHypothesis =>
      obtain ⟨leftValue, rightValue, evalLeft, evalRight, verdict⟩ := eval_binary_ok accepted
      have both := logic_and_true verdict
      intro conjunct member
      rw [collectConjuncts] at member
      rcases List.mem_append.mp member with inLeft | inRight
      · exact leftHypothesis (both.1 ▸ evalLeft) conjunct inLeft
      · exact rightHypothesis (both.2 ▸ evalRight) conjunct inRight
  | case2 other notAnd =>
      intro conjunct member
      rw [collectConjuncts] at member
      · obtain rfl := List.mem_singleton.mp member
        exact accepted
      · exact notAnd

/-! ## The range against one row -/

/--
In no `REAL` column that the scan pins or bounds inclusively does the row hold a
zero on the far side of a zero literal.
-/
def SignsAgree (predicates : List ColumnPredicate) (values : List Value) : List Nat → Prop
  | [] => True
  | position :: rest =>
      match findEq predicates position with
      | some pin =>
          ¬ (column values position).Crossed pin ∧ SignsAgree predicates values rest
      | none =>
          (∀ value,
            findLower predicates position = some (value, true) →
              ¬ MinusPlus (column values position) value) ∧
            ∀ value,
              findUpper predicates position = some (value, true) →
                ¬ MinusPlus value (column values position)

/-- The row meets every predicate, each at the type of its column. -/
def Met (predicates : List ColumnPredicate) (values : List Value) : Prop :=
  ∀ predicate ∈ predicates,
    ∃ type,
      predicate.kind.value.fits type = true ∧
        (column values predicate.column).fits type = true ∧
          predicate.kind.Holds (column values predicate.column)

theorem findEq_some
    {predicates : List ColumnPredicate}
    {position : Nat}
    {value : Value}
    (found : findEq predicates position = some value) :
    { column := position, kind := .eq value } ∈ predicates := by
  obtain ⟨predicate, member, matched⟩ := List.exists_of_findSome?_eq_some found
  obtain ⟨at_, kind⟩ := predicate
  cases kind with
  | eq other =>
      simp only [Option.ite_none_right_eq_some, Option.some.injEq] at matched
      obtain ⟨rfl, rfl⟩ := matched
      exact member
  | _ => cases matched

theorem findLower_some
    {predicates : List ColumnPredicate}
    {position : Nat}
    {value : Value}
    {inclusive : Bool}
    (found : findLower predicates position = some (value, inclusive)) :
    { column := position, kind := .lower value inclusive } ∈ predicates := by
  obtain ⟨predicate, member, matched⟩ := List.exists_of_findSome?_eq_some found
  obtain ⟨at_, kind⟩ := predicate
  cases kind with
  | lower other strict =>
      simp only [Option.ite_none_right_eq_some, Option.some.injEq, Prod.mk.injEq] at matched
      obtain ⟨rfl, rfl, rfl⟩ := matched
      exact member
  | _ => cases matched

theorem findUpper_some
    {predicates : List ColumnPredicate}
    {position : Nat}
    {value : Value}
    {inclusive : Bool}
    (found : findUpper predicates position = some (value, inclusive)) :
    { column := position, kind := .upper value inclusive } ∈ predicates := by
  obtain ⟨predicate, member, matched⟩ := List.exists_of_findSome?_eq_some found
  obtain ⟨at_, kind⟩ := predicate
  cases kind with
  | upper other strict =>
      simp only [Option.ite_none_right_eq_some, Option.some.injEq, Prod.mk.injEq] at matched
      obtain ⟨rfl, rfl, rfl⟩ := matched
      exact member
  | _ => cases matched

section Tails

variable
  {predicates : List ColumnPredicate}
  {position : Nat}
  {tail : List UInt8}

/-- The pinned value is the held one unless the two are crossed zeros. -/
theorem pin_iff
    {pin : Value}
    (met : Met predicates values)
    (found : findEq predicates position = some pin) :
    pin = column values position ↔ ¬ (column values position).Crossed pin := by
  obtain ⟨type, pinFits, heldFits, ordering, compared, accepts⟩ :=
    met _ (findEq_some found)
  obtain rfl : ordering = .eq := of_decide_eq_true accepts
  constructor
  · intro same crossed
    rcases crossed_iff.mp crossed with zeros | zeros
    · exact nomatch zeros.2.symm.trans (same.trans zeros.1)
    · exact nomatch zeros.1.symm.trans (same.trans zeros.2)
  · intro straight
    exact ((Value.compareWith_eq heldFits pinFits compared).resolve_right straight).symm

theorem lower_iff
    {lowerTail : List UInt8}
    (met : Met predicates values)
    (ends :
      ({ pins := [], lower := findLower predicates position,
         upper := findUpper predicates position } : Bounds).lowerTail = some lowerTail) :
    lowerTail ≤ encodeIndexValue (column values position) ++ tail ↔
      ∀ value,
        findLower predicates position = some (value, true) →
          ¬ MinusPlus (column values position) value := by
  simp only [Bounds.lowerTail] at ends
  cases found : findLower predicates position with
  | none =>
      rw [found] at ends
      obtain rfl := Option.some.inj ends
      exact iff_of_true (List.nil_le _) (by nofun)
  | some bound =>
      obtain ⟨value, inclusive⟩ := bound
      obtain ⟨type, valueFits, heldFits, ordering, compared, accepts⟩ :=
        met _ (findLower_some found)
      rw [found] at ends
      cases inclusive with
      | true =>
          obtain rfl := Option.some.inj ends
          have one :
              encodeIndexValue value ≤ encodeIndexValue (column values position) ++ tail ↔
                ¬ MinusPlus (column values position) value :=
            inclusive_lower_iff heldFits valueFits compared (of_decide_eq_true accepts)
          rw [one]
          constructor
          · rintro straight other same
            cases same
            exact straight
          · exact fun straight => straight value rfl
      | false =>
          obtain rfl : ordering = .gt := of_decide_eq_true accepts
          exact iff_of_true (exclusive_lower heldFits valueFits compared ends) (by nofun)

theorem upper_iff
    (met : Met predicates values)
    (bounded :
      ∀ value,
        findUpper predicates position = some (value, true) →
          ∃ bound, prefixUpperBound (encodeIndexValue value) = some bound) :
    ({ pins := [], lower := findLower predicates position,
       upper := findUpper predicates position } : Bounds).Below
        (encodeIndexValue (column values position) ++ tail) ↔
      ∀ value,
        findUpper predicates position = some (value, true) →
          ¬ MinusPlus value (column values position) := by
  simp only [Bounds.Below]
  cases found : findUpper predicates position with
  | none => exact iff_of_true trivial (by nofun)
  | some bound =>
      obtain ⟨value, inclusive⟩ := bound
      obtain ⟨type, valueFits, heldFits, ordering, compared, accepts⟩ :=
        met _ (findUpper_some found)
      cases inclusive with
      | true =>
          obtain ⟨bound, stepped⟩ := bounded value found
          have one :=
            @inclusive_upper_iff type _ value tail bound heldFits valueFits ordering compared
              (of_decide_eq_true accepts) stepped
          simp only [stepped, Option.mem_def, Option.some.injEq, forall_eq', one]
          constructor
          · rintro straight other same
            cases same
            exact straight
          · exact fun straight => straight value rfl
      | false =>
          obtain rfl : ordering = .lt := of_decide_eq_true accepts
          exact iff_of_true (exclusive_upper heldFits valueFits compared) (by nofun)

/-- Along the columns of the index. -/
theorem tail_iff
    (met : Met predicates values)
    {columns : List Nat}
    {lowerTail : List UInt8}
    (ends : (bounds predicates columns).lowerTail = some lowerTail)
    (bounded :
      ∀ value,
        (bounds predicates columns).upper = some (value, true) →
          ∃ bound, prefixUpperBound (encodeIndexValue value) = some bound) :
    (∃ rest,
      encodeIndexValuePrefix values columns ++ tail =
          (bounds predicates columns).pinnedPrefix ++ rest ∧
        lowerTail ≤ rest ∧
          (bounds predicates columns).Below rest) ↔
      SignsAgree predicates values columns := by
  induction columns with
  | nil =>
      obtain rfl := Option.some.inj ends
      exact iff_of_true ⟨tail, rfl, List.nil_le _, trivial⟩ trivial
  | cons position rest inductionHypothesis =>
      have spelled :
          encodeIndexValuePrefix values (position :: rest) ++ tail =
            encodeIndexValue (column values position) ++
              (encodeIndexValuePrefix values rest ++ tail) := by
        simp [encodeIndexValuePrefix]
      cases found : findEq predicates position with
      | some pin =>
          simp only [bounds, found] at ends bounded ⊢
          have signs :
              SignsAgree predicates values (position :: rest) ↔
                pin = column values position ∧ SignsAgree predicates values rest := by
            simp only [SignsAgree, found, pin_iff met found]
          rw [signs, spelled, ← inductionHypothesis ends bounded]
          constructor
          · rintro ⟨later, same, above, below⟩
            have split :
                encodeIndexValue (column values position) ++
                    (encodeIndexValuePrefix values rest ++ tail) =
                  encodeIndexValue pin ++
                    ((bounds predicates rest).pinnedPrefix ++ later) := by
              simpa [Bounds.pinnedPrefix] using same
            obtain ⟨heads, tails⟩ := encodeIndexValue_append_inj split
            exact ⟨heads.symm, later, tails, above, below⟩
          · rintro ⟨heads, later, tails, above, below⟩
            refine ⟨later, ?_, above, below⟩
            rw [← heads, tails]
            simp [Bounds.pinnedPrefix]
      | none =>
          simp only [bounds, found] at ends bounded ⊢
          simp only [SignsAgree, found]
          rw [← lower_iff met ends, ← upper_iff met bounded, spelled]
          constructor
          · rintro ⟨later, same, above, below⟩
            obtain rfl : _ = later := same
            exact ⟨above, below⟩
          · rintro ⟨above, below⟩
            exact ⟨_, rfl, above, below⟩

end Tails

/-! ## The chosen plan -/

theorem buildIndexScan_some
    {predicates : List ColumnPredicate}
    {index : Index}
    {plan : IndexPlan}
    (built : buildIndexScan predicates index = some plan) :
    (bounds predicates index.columns).lowerKey = some plan.lower ∧
      (bounds predicates index.columns).upperKey = some plan.upper := by
  simp only [buildIndexScan] at built
  split at built
  case isTrue => cases built
  case isFalse =>
    obtain ⟨lower, lowerEnd, rest⟩ := Option.bind_eq_some_iff.mp built
    obtain ⟨upper, upperEnd, same⟩ := Option.bind_eq_some_iff.mp rest
    cases same
    exact ⟨lowerEnd, upperEnd⟩

/-- A row that meets the predicates is in the range where its zeros agree in sign. -/
theorem plan_range_iff
    {predicates : List ColumnPredicate}
    {index : Index}
    {plan : IndexPlan}
    {rowid : Nat}
    (met : Met predicates values)
    (built : buildIndexScan predicates index = some plan) :
    inIndexRange plan.lower plan.upper (encodeIndexKey values index.columns rowid) = true ↔
      SignsAgree predicates values index.columns := by
  obtain ⟨lowerEnd, upperEnd⟩ := buildIndexScan_some built
  obtain ⟨lowerTail, ends, _⟩ :=
    Option.map_eq_some_iff.mp ((Bounds.lowerKey_eq _).symm.trans lowerEnd)
  rw [Bounds.inIndexRange_iff ends lowerEnd upperEnd, encodeIndexKey]
  refine tail_iff met ends fun value inclusive => ?_
  rw [Bounds.upperKey, inclusive] at upperEnd
  obtain ⟨bound, stepped, _⟩ := Option.map_eq_some_iff.mp upperEnd
  exact ⟨bound, stepped⟩

/-- The loop keeps the best, or takes the next index with its plan. -/
theorem better_some
    {predicates : List ColumnPredicate}
    {best : Option (Index × IndexPlan)}
    {next index : Index}
    {plan : IndexPlan}
    (chosen : better predicates best next = some (index, plan)) :
    best = some (index, plan) ∨
      next = index ∧ index.isBuilding = false ∧
        buildIndexScan predicates index = some plan := by
  unfold better at chosen
  split at chosen
  case isTrue => exact Or.inl chosen
  case isFalse finished =>
    split at chosen
    case h_1 => exact Or.inl chosen
    case h_2 own built =>
      cases chosen
      exact Or.inr ⟨rfl, Bool.eq_false_iff.mpr finished, built⟩
    case h_3 own other current built =>
      split at chosen
      case isTrue =>
        cases chosen
        exact Or.inr ⟨rfl, Bool.eq_false_iff.mpr finished, built⟩
      case isFalse => exact Or.inl chosen

theorem bestIndex_some
    {predicates : List ColumnPredicate}
    {indexes : List Index}
    {index : Index}
    {plan : IndexPlan}
    (chosen : bestIndex predicates indexes = some (index, plan)) :
    index ∈ indexes ∧ index.isBuilding = false ∧
      buildIndexScan predicates index = some plan := by
  refine List.foldlRecOn
    (motive := fun best =>
      ∀ index plan,
        best = some (index, plan) →
          index ∈ indexes ∧ index.isBuilding = false ∧
            buildIndexScan predicates index = some plan)
    indexes (better predicates) (by nofun) ?_ index plan chosen
  intro best before next member index plan found
  rcases better_some found with earlier | ⟨rfl, finished, built⟩
  · exact before index plan earlier
  · exact ⟨member, finished, built⟩

/-! ## The scan -/

theorem rowidKey_injective
    {first second : UInt64}
    (same : rowidKey first.toNat = rowidKey second.toNat) :
    first = second := by
  have numbers := bigEndian_injective same
  simpa using numbers

namespace Table

variable {table : Table schema} {index : Index}

/-- A rowid belongs to one version. -/
theorem unique
    {first second : Version}
    (left : first ∈ table.versions)
    (right : second ∈ table.versions)
    (same : first.rowid = second.rowid) :
    first = second :=
  List.inj_on_of_nodup_map table.keyed left right same

theorem search_some
    {version : Version}
    (present : version ∈ table.versions) :
    table.search (rowidKey version.rowid.toNat) = some version := by
  cases found : table.search (rowidKey version.rowid.toNat) with
  | none =>
      have missing := List.find?_eq_none.mp found version present
      simp at missing
  | some other =>
      unfold search at found
      have same := List.find?_some found
      simp only [decide_eq_true_eq] at same
      exact congrArg some
        (unique (List.mem_of_find?_eq_some found) present (rowidKey_injective same))

theorem key_suffix (version : Version) :
    ¬ (index.key version).length < 8 ∧
      (index.key version).drop ((index.key version).length - 8) =
        rowidKey version.rowid.toNat := by
  have length : (rowidKey version.rowid.toNat).length = 8 := by simp [rowidKey]
  constructor
  · simp [Index.key, encodeIndexKey, length]
  · simp [Index.key, encodeIndexKey, length]

theorem follow_ok
    {keys : List (List UInt8)}
    (rooted : ∀ key ∈ keys, ∃ version ∈ table.versions, key = index.key version)
    (seen : List (List UInt8)) :
    ∃ found,
      table.follow seen keys = .ok found ∧
        found.Nodup ∧
          ∀ version,
            version ∈ found ↔
              version ∈ table.versions ∧ version.visible = true ∧
                index.key version ∈ keys ∧ rowidKey version.rowid.toNat ∉ seen := by
  induction keys generalizing seen with
  | nil => exact ⟨[], rfl, List.nodup_nil, by simp⟩
  | cons key rest inductionHypothesis =>
      obtain ⟨owner, present, rfl⟩ := rooted _ List.mem_cons_self
      have later := fun seen =>
        inductionHypothesis (fun key member => rooted key (List.mem_cons_of_mem _ member)) seen
      obtain ⟨long, suffix⟩ := @key_suffix index owner
      have owned (version : Version) (stored : version ∈ table.versions)
          (same : index.key version = index.key owner) : version = owner := by
        refine unique stored present (rowidKey_injective ?_)
        rw [← (@key_suffix index version).2, same, suffix]
      rw [follow, if_neg long]
      simp only [suffix, search_some present]
      by_cases known : rowidKey owner.rowid.toNat ∈ seen
      · obtain ⟨found, ran, apart, members⟩ := later seen
        refine ⟨found, by rw [if_pos known, ran], apart,
          fun version => (members version).trans ?_⟩
        constructor
        · rintro ⟨stored, visible, listed, unseen⟩
          exact ⟨stored, visible, List.mem_cons_of_mem _ listed, unseen⟩
        · rintro ⟨stored, visible, listed, unseen⟩
          rcases List.mem_cons.mp listed with same | listed
          · exact absurd (owned version stored same ▸ known) unseen
          · exact ⟨stored, visible, listed, unseen⟩
      · obtain ⟨found, ran, apart, members⟩ := later (rowidKey owner.rowid.toNat :: seen)
        have fresh : owner ∉ found := fun member =>
          ((members owner).mp member).2.2.2 List.mem_cons_self
        refine ⟨if owner.visible then owner :: found else found,
          by rw [if_neg known, ran]; rfl, ?_, fun version => ?_⟩
        · cases owner.visible with
          | true => exact List.nodup_cons.mpr ⟨fresh, apart⟩
          | false => exact apart
        have here : (version ∈ if owner.visible then owner :: found else found) ↔
            (version = owner ∧ owner.visible = true) ∨ version ∈ found := by
          cases owner.visible <;> simp
        rw [here, members]
        constructor
        · rintro (⟨rfl, visible⟩ | ⟨stored, visible, listed, unseen⟩)
          · exact ⟨present, visible, List.mem_cons_self, known⟩
          · exact ⟨stored, visible, List.mem_cons_of_mem _ listed,
              fun member => unseen (List.mem_cons_of_mem _ member)⟩
        · rintro ⟨stored, visible, listed, unseen⟩
          by_cases own : version = owner
          · subst own
            exact Or.inl ⟨rfl, visible⟩
          · refine Or.inr ⟨stored, visible, ?_, fun member => ?_⟩
            · exact (List.mem_cons.mp listed).resolve_left fun same =>
                own (owned version stored same)
            · rcases List.mem_cons.mp member with same | old
              · exact own (unique stored present (rowidKey_injective same))
              · exact unseen old

end Table

/-! ## The answer -/

/-- `Filter`: the rows the predicate accepts, unless one makes it fail. -/
def filterRows
    (scope : Scope)
    (filter : Expr Query) : List Version → Except Error (List Version)
  | [] => .ok []
  | version :: rest => do
      let accepted ← passesFilter (some filter) scope version.values
      let later ← filterRows scope filter rest
      pure (if accepted then version :: later else later)

def Table.answer
    (table : Table schema)
    (qualifier : String)
    (filter : Expr Query)
    (access : AccessPath) : Except Error (List Version) := do
  filterRows (schema.scope qualifier) filter (← table.scan access)

theorem filterRows_ok
    {scope : Scope}
    {filter : Expr Query}
    {versions : List Version}
    (evaluates :
      ∀ version ∈ versions, ∃ accepted, passesFilter (some filter) scope version.values = .ok accepted) :
    ∃ kept,
      filterRows scope filter versions = .ok kept ∧
        ∀ version,
          version ∈ kept ↔
            version ∈ versions ∧ passesFilter (some filter) scope version.values = .ok true := by
  induction versions with
  | nil => exact ⟨[], rfl, by simp⟩
  | cons first rest inductionHypothesis =>
      obtain ⟨accepted, verdict⟩ := evaluates first List.mem_cons_self
      obtain ⟨kept, ran, members⟩ := inductionHypothesis fun version member =>
        evaluates version (List.mem_cons_of_mem _ member)
      refine ⟨if accepted then first :: kept else kept, ?_, fun version => ?_⟩
      · rw [filterRows, verdict, ran]
        rfl
      · cases accepted with
        | true =>
            simp only [if_true, List.mem_cons, members]
            constructor
            · rintro (rfl | ⟨member, passes⟩)
              · exact ⟨Or.inl rfl, verdict⟩
              · exact ⟨Or.inr member, passes⟩
            · rintro ⟨rfl | member, passes⟩
              · exact Or.inl rfl
              · exact Or.inr ⟨member, passes⟩
        | false =>
            simp only [Bool.false_eq_true, if_false, List.mem_cons, members]
            constructor
            · exact fun both => ⟨Or.inr both.1, both.2⟩
            · rintro ⟨rfl | member, passes⟩
              · exact nomatch verdict.symm.trans passes
              · exact ⟨member, passes⟩

section Answers

variable
  (table : Table schema)
  (qualifier : String)
  (filter : Expr Query)
  (orderBy : List OrderKey)

/-- The chosen access path gives the accepted rows of a full scan. -/
def SameRows : Prop :=
  ∃ reached full,
    table.answer qualifier filter (chooseAccess (some schema) (some filter) orderBy).1 =
        .ok reached ∧
      table.answer qualifier filter .fullScan = .ok full ∧
        ∀ version, version ∈ reached ↔ version ∈ full

/-- The versions the snapshot sees and the predicate accepts. -/
def Accepted (version : Version) : Prop :=
  version ∈ table.versions ∧ version.visible = true ∧
    passesFilter (some filter) (schema.scope qualifier) version.values = .ok true

/-- No accepted row has its key outside the range. -/
def Covers : Prop :=
  ∀ index plan,
    bestIndex (predicatesOf schema filter) schema.indexes = some (index, plan) →
      ∀ version,
        Accepted table qualifier filter version →
          inIndexRange plan.lower plan.upper (index.key version) = true

/-- No accepted row holds the other zero where the chosen index is searched for one. -/
def Straight : Prop :=
  ∀ index plan,
    bestIndex (predicatesOf schema filter) schema.indexes = some (index, plan) →
      ∀ version,
        Accepted table qualifier filter version →
          SignsAgree (predicatesOf schema filter) version.values index.columns

end Answers

variable
  {table : Table schema}
  {filter : Expr Query}

theorem met_of_accepted
    {version : Version}
    (accepted : Accepted table qualifier filter version) :
    Met (predicatesOf schema filter) version.values := by
  obtain ⟨stored, _, passes⟩ := accepted
  intro predicate member
  obtain ⟨conjunct, conjunctMember, classified⟩ := List.mem_filterMap.mp member
  have verdict : eval (schema.scope qualifier) version.values filter = .ok (.bool true) := by
    rw [passesFilter] at passes
    cases evaluated : eval (schema.scope qualifier) version.values filter with
    | error error => rw [evaluated] at passes; cases passes
    | ok value =>
        rw [evaluated] at passes
        exact congrArg _ (of_decide_eq_true (Except.ok.inj passes))
  obtain ⟨column, found, valueFits, holds⟩ :=
    classify_holds (table.typed version stored) classified
      (collectConjuncts_true verdict conjunct conjunctMember)
  exact ⟨column.type, valueFits, table.typed version stored _ _ found, holds⟩

theorem covers_iff_straight :
    Covers table qualifier filter ↔ Straight table qualifier filter := by
  refine forall_congr' fun index => forall_congr' fun plan => imp_congr_right fun chosen =>
    forall_congr' fun version => imp_congr_right fun accepted => ?_
  exact plan_range_iff (met_of_accepted accepted) (bestIndex_some chosen).2.2

/-- A scan that yields some visible versions yields those of them that are accepted. -/
theorem answer_ok
    {access : AccessPath}
    {found : List Version}
    {reaches : Version → Prop}
    (evaluates :
      ∀ version ∈ table.versions,
        version.visible = true →
          ∃ verdict,
            passesFilter (some filter) (schema.scope qualifier) version.values = .ok verdict)
    (scanned : table.scan access = .ok found)
    (members :
      ∀ version,
        version ∈ found ↔
          version ∈ table.versions ∧ version.visible = true ∧ reaches version) :
    ∃ kept,
      table.answer qualifier filter access = .ok kept ∧
        ∀ version,
          version ∈ kept ↔ Accepted table qualifier filter version ∧ reaches version := by
  obtain ⟨kept, ran, kept_iff⟩ := filterRows_ok fun version member => by
    obtain ⟨stored, visible, _⟩ := (members version).mp member
    exact evaluates version stored visible
  refine ⟨kept, ?_, fun version => (kept_iff version).trans ?_⟩
  · rw [Table.answer, scanned]
    exact ran
  · rw [members]
    constructor
    · exact fun ⟨⟨stored, visible, reached⟩, passes⟩ => ⟨⟨stored, visible, passes⟩, reached⟩
    · exact fun ⟨⟨stored, visible, passes⟩, reached⟩ => ⟨⟨stored, visible, reached⟩, passes⟩

theorem sameRows_iff_covers
    (orderBy : List OrderKey)
    (evaluates :
      ∀ version ∈ table.versions,
        version.visible = true →
          ∃ verdict,
            passesFilter (some filter) (schema.scope qualifier) version.values = .ok verdict) :
    SameRows table qualifier filter orderBy ↔ Covers table qualifier filter := by
  obtain ⟨full, walked, full_iff⟩ :=
    @answer_ok _ schema qualifier table filter .fullScan _ (fun _ => True) evaluates rfl
      (fun version => by rw [List.mem_filter, and_true])
  cases chosen : bestIndex (predicatesOf schema filter) schema.indexes with
  | none =>
      have access : (chooseAccess (some schema) (some filter) orderBy).1 = .fullScan := by
        simp only [chooseAccess, chosen]
      refine iff_of_true ⟨full, full, by rw [access, walked], walked, fun _ => Iff.rfl⟩ ?_
      intro index plan other
      exact nomatch chosen.symm.trans other
  | some best =>
      obtain ⟨index, plan⟩ := best
      have access :
          (chooseAccess (some schema) (some filter) orderBy).1 =
            .indexScan index.root plan.lower plan.upper := by
        simp only [chooseAccess, chosen]
      obtain ⟨listed, finished, _⟩ := bestIndex_some chosen
      have entries := table.indexed index listed finished
      have rooted :
          ∀ key ∈ (table.trees index.root).filter (inIndexRange plan.lower plan.upper),
            ∃ version ∈ table.versions, key = index.key version := by
        intro key member
        have entry := entries.mem_iff.mp (List.mem_filter.mp member).1
        obtain ⟨version, stored, rfl⟩ := List.mem_map.mp entry
        exact ⟨version, stored, rfl⟩
      obtain ⟨found, followed, _, found_iff⟩ := Table.follow_ok rooted []
      obtain ⟨reached, ran, reached_iff⟩ :=
        @answer_ok _ schema qualifier table filter
          (.indexScan index.root plan.lower plan.upper) found
          (fun version => index.key version ∈
            (table.trees index.root).filter (inIndexRange plan.lower plan.upper))
          evaluates followed (fun version => by simpa using found_iff version)
      have entered (version : Version) (stored : version ∈ table.versions) :
          index.key version ∈ table.trees index.root :=
        entries.mem_iff.mpr (List.mem_map.mpr ⟨version, stored, rfl⟩)
      constructor
      · rintro ⟨reached', full', ran', walked', same⟩ other plan' other_
        rw [chosen] at other_
        cases other_
        intro version accepted
        obtain rfl := Except.ok.inj ((access ▸ ran').symm.trans ran)
        obtain rfl := Except.ok.inj (walked'.symm.trans walked)
        have inFull := (full_iff version).mpr ⟨accepted, trivial⟩
        exact (List.mem_filter.mp ((reached_iff version).mp ((same version).mpr inFull)).2).2
      · intro covers
        refine ⟨reached, full, by rw [access, ran], walked, fun version => ?_⟩
        rw [reached_iff, full_iff]
        constructor
        · exact fun both => ⟨both.1, trivial⟩
        · intro both
          refine ⟨both.1, List.mem_filter.mpr ⟨entered version both.1.1, ?_⟩⟩
          exact covers index plan chosen version both.1

/--
The rows of the chosen index scan are those of the full scan, and no accepted
row lies outside its range, exactly when no accepted row holds the other zero
in a `REAL` column where the scan looks for one.
-/
theorem indexScan_answers_iff
    (table : Table schema)
    (qualifier : String)
    (filter : Expr Query)
    (orderBy : List OrderKey)
    (evaluates :
      ∀ version ∈ table.versions,
        version.visible = true →
          ∃ verdict,
            passesFilter (some filter) (schema.scope qualifier) version.values = .ok verdict) :
    (SameRows table qualifier filter orderBy ↔ Straight table qualifier filter) ∧
      (Covers table qualifier filter ↔ Straight table qualifier filter) :=
  ⟨(sameRows_iff_covers orderBy evaluates).trans covers_iff_straight, covers_iff_straight⟩

/-! ## A column of temperatures -/

def temperatures : Schema where
  columns := [{ name := "degrees", type := .real }]
  indexes := [{ columns := [0], root := 7, isBuilding := false }]

/-- `degrees = 0.0`. -/
def isZero : Expr Empty :=
  .binary (.comparison .eq) (.column { table := none, name := "degrees" }) (.real 0)

/-- One row of one value. -/
def measured (bits : UInt64) : Table temperatures where
  versions := [{ rowid := 1, values := [.real bits], visible := true }]
  trees := fun _ =>
    [encodeIndexKey [.real bits] [0] 1]
  keyed := List.nodup_singleton _
  typed := by
    intro version stored position column found
    obtain rfl := List.mem_singleton.mp stored
    match position with
    | 0 =>
        cases found
        rfl
    | _ + 1 => cases found
  indexed := by
    intro index listed _
    obtain rfl := List.mem_singleton.mp listed
    exact List.Perm.refl _

/-- A stored positive zero is found by its own sign. -/
theorem indexScan_answers_zero :
    (SameRows (measured 0) "t" isZero [] ↔ Straight (measured 0) "t" isZero) ∧
      (Covers (measured 0) "t" isZero ↔ Straight (measured 0) "t" isZero) := by
  refine indexScan_answers_iff (measured 0) "t" isZero [] ?_
  intro version stored _
  obtain rfl := List.mem_singleton.mp stored
  exact ⟨true, by decide⟩

/-- `WHERE degrees = 0.0` passes over a stored negative zero, which a full scan returns. -/
theorem negative_zero_missed :
    (∀ version ∈ (measured 0x8000000000000000).versions,
      passesFilter (some isZero) (temperatures.scope "t") version.values = .ok true) ∧
    ¬ SameRows (measured 0x8000000000000000) "t" isZero [] := by
  refine ⟨?_, ?_⟩
  · intro version stored
    obtain rfl := List.mem_singleton.mp stored
    decide
  · rintro ⟨reached, full, ran, walked, same⟩
    have none :
        (measured 0x8000000000000000).answer "t" isZero
          (chooseAccess (some temperatures) (some isZero) []).1 = .ok [] := by
      decide
    have one :
        (measured 0x8000000000000000).answer "t" isZero .fullScan =
          .ok (measured 0x8000000000000000).versions := by
      decide
    obtain rfl := Except.ok.inj (none.symm.trans ran)
    obtain rfl := Except.ok.inj (one.symm.trans walked)
    exact List.not_mem_nil ((same _).mpr (List.mem_singleton_self _))

end PrehniteDB.AccessPaths
