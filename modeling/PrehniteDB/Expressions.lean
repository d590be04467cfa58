import PrehniteDB.IndexValues

namespace PrehniteDB

open ReadPaths (ColumnType)

/-!
# Expressions

The evaluator of bound expressions: placeholders have been replaced by literals.
The operators of the source's one enumeration are split by the function that
handles them.  A subquery is whatever `Query` stands for.
-/

/-! ## Numbers -/

/-- An exponent of ones and a fraction that is not zero. -/
def realIsNaN (bits : UInt64) : Bool :=
  0x7FF0000000000000 < bits &&& 0x7FFFFFFFFFFFFFFF

/-- The place of a number on the line; the two zeros share theirs. -/
def realPlace (bits : UInt64) : Int :=
  let magnitude : Int := (bits &&& 0x7FFFFFFFFFFFFFFF).toNat
  if bits &&& 0x8000000000000000 ≠ 0 then -magnitude else magnitude

/-- `f64::partial_cmp`. -/
def realCompare (left right : UInt64) : Option Ordering :=
  if realIsNaN left || realIsNaN right then none
  else some (compare (realPlace left) (realPlace right))

/-- Either zero. -/
def realIsZero (bits : UInt64) : Bool := bits &&& 0x7FFFFFFFFFFFFFFF = 0

def realNegate (bits : UInt64) : UInt64 := bits ^^^ 0x8000000000000000

/-- An operation of the `f64`s, on their bits. -/
def onReals (operation : Float → Float → Float) (left right : UInt64) : UInt64 :=
  (operation (Float.ofBits left) (Float.ofBits right)).toBits

/-- `n as f64`. -/
def realOfInt (number : Int64) : UInt64 :=
  let magnitude := (UInt64.ofNat number.toInt.natAbs).toFloat.toBits
  if number < 0 then realNegate magnitude else magnitude

/-- The result of a checked operation of the `i64`s. -/
def checked (number : Int) : Option Int64 :=
  if -(2 ^ 63) ≤ number ∧ number < 2 ^ 63 then some (Int64.ofInt number) else none

/-! ## Syntax -/

inductive UnaryOp where
  | neg
  | not
  deriving Repr, DecidableEq

inductive ArithmeticOp where
  | add
  | sub
  | mul
  | div
  deriving Repr, DecidableEq

inductive ComparisonOp where
  | eq
  | notEq
  | lt
  | ltEq
  | gt
  | gtEq
  deriving Repr, DecidableEq

inductive LogicOp where
  | and
  | or
  deriving Repr, DecidableEq

inductive BinaryOp where
  | arithmetic (op : ArithmeticOp)
  | comparison (op : ComparisonOp)
  | logic (op : LogicOp)
  deriving Repr, DecidableEq

/-- A column, with its table's qualifier if one was written. -/
structure ColumnRef where
  table : Option String
  name : String
  deriving Repr, DecidableEq

/-- As messages name it. -/
def ColumnRef.display (ref : ColumnRef) : String :=
  match ref.table with
  | some table => table ++ "." ++ ref.name
  | none => ref.name

/-- Expressions over subqueries of some type. -/
inductive Expr (Query : Type) where
  | null
  | integer (number : Int64)
  | real (bits : UInt64)
  | str (string : String)
  | bool (truth : Bool)
  | column (ref : ColumnRef)
  | aggregate
  | unary (op : UnaryOp) (expr : Expr Query)
  | binary (op : BinaryOp) (left right : Expr Query)
  | isNull (expr : Expr Query) (negated : Bool)
  | inSubquery (expr : Expr Query) (subquery : Query) (negated : Bool)
  | exists (subquery : Query)
  | scalarSubquery (subquery : Query)
  /-- The candidates are literals; here they are their values. -/
  | inList (expr : Expr Query) (values : List Value) (hasNull negated : Bool)
  | correlatedExists (subquery : Query)
  | correlatedScalarSubquery (subquery : Query)
  | correlatedInSubquery (expr : Expr Query) (subquery : Query) (negated : Bool)
  deriving Repr, DecidableEq

/-! ## Scopes -/

/-- As messages name it. -/
def ColumnType.display : ColumnType → String
  | .int => "INT"
  | .real => "REAL"
  | .text => "TEXT"
  | .bool => "BOOL"

/-- A column that a query can name. -/
structure ScopedColumn where
  /-- How a qualified reference names this column's table. -/
  table : String
  name : String
  type : ColumnType
  deriving Repr, DecidableEq

abbrev Scope := List ScopedColumn

/-- A qualified reference names table and column, a bare one only the column. -/
def ColumnRef.names (ref : ColumnRef) (column : ScopedColumn) : Bool :=
  (match ref.table with
    | some qualifier => decide (qualifier = column.table)
    | none => true) &&
    decide (column.name = ref.name)

namespace Scope

/-- The position of a column, which has to be the only one of its name. -/
def resolve (scope : Scope) (ref : ColumnRef) : Except Error Nat :=
  match scope.findIdxs ref.names with
  | [] => .error (.exec ("no such column: '" ++ ref.display ++ "'"))
  | [index] => .ok index
  | _ => .error (.exec ("column reference '" ++ ref.display ++ "' is ambiguous"))

/-- A name resolves where exactly one column has it. -/
theorem resolve_ok_iff
    {scope : Scope}
    {ref : ColumnRef}
    {index : Nat} :
    scope.resolve ref = .ok index ↔ scope.findIdxs ref.names = [index] := by
  unfold resolve
  split
  case h_1 none => simp [none]
  case h_2 single => simp [single]
  case h_3 several => simpa using several index

theorem resolve_names
    {scope : Scope}
    {ref : ColumnRef}
    {index : Nat}
    (resolved : scope.resolve ref = .ok index) :
    ∃ column, scope[index]? = some column ∧ ref.names column = true := by
  have listed : index ∈ scope.findIdxs ref.names :=
    resolve_ok_iff.mp resolved ▸ List.mem_singleton_self index
  obtain ⟨bound, names⟩ := List.mem_findIdxs_iff_exists_getElem_pos.mp listed
  exact ⟨scope[index], List.getElem?_eq_getElem bound, names⟩

end Scope

/-! ## Evaluation -/

namespace Value

def isNumber : Value → Bool
  | .int _ | .real _ => true
  | _ => false

/-- The operand of an arithmetic operator. -/
def asNumber : Value → Except Error UInt64
  | .int number => .ok (realOfInt number)
  | .real bits => .ok bits
  | other => .error (.exec ("expected a number, found " ++ other.typeName))

/-- The operand of a logic operator; `NULL` is unknown. -/
def asBool : Value → Except Error (Option Bool)
  | .null => .ok none
  | .bool truth => .ok (some truth)
  | other => .error (.exec ("expected a boolean, found " ++ other.typeName))

/-- `str::cmp`, by the bytes. -/
def textCompare (left right : String) : Ordering :=
  let leftBytes := left.toUTF8.data.toList
  let rightBytes := right.toUTF8.data.toList
  if leftBytes = rightBytes then .eq
  else if leftBytes < rightBytes then .lt
  else .gt

/-- `compare`. -/
def compareWith : Value → Value → Except Error Ordering
  | .int left, .int right => .ok (Ord.compare left.toInt right.toInt)
  | .text left, .text right => .ok (textCompare left right)
  | .bool left, .bool right => .ok (Ord.compare left right)
  | left, right =>
      if left.isNumber && right.isNumber then do
        match realCompare (← left.asNumber) (← right.asNumber) with
        | some ordering => pure ordering
        | none => throw (.exec "cannot compare NaN")
      else
        .error (.exec
          ("cannot compare " ++ left.typeName ++ " with " ++ right.typeName))

end Value

/-- Negation, which overflows at one number, and `NOT`. -/
def evalUnary : UnaryOp → Value → Except Error Value
  | .neg, .null => .ok .null
  | .neg, .int number =>
      match checked (-number.toInt) with
      | some negated => .ok (.int negated)
      | none => .error (.exec "integer overflow while negating")
  | .neg, .real bits => .ok (.real (realNegate bits))
  | .neg, other => .error (.exec ("cannot negate " ++ other.typeName))
  | .not, .null => .ok .null
  | .not, .bool truth => .ok (.bool !truth)
  | .not, other => .error (.exec ("NOT expects a boolean, found " ++ other.typeName))

/-- The checked integer operation; a divisor of zero is its own error. -/
def integerArithmetic (op : ArithmeticOp) (left right : Int64) : Except Error Int64 :=
  if op = .div ∧ right = 0 then .error (.exec "division by zero")
  else
    let result :=
      match op with
      | .add => checked (left.toInt + right.toInt)
      | .sub => checked (left.toInt - right.toInt)
      | .mul => checked (left.toInt * right.toInt)
      | .div => checked (left.toInt.tdiv right.toInt)
    match result with
    | some number => .ok number
    | none => .error (.exec "integer overflow")

def realArithmetic (op : ArithmeticOp) (left right : UInt64) : Except Error UInt64 :=
  match op with
  | .add => .ok (onReals (· + ·) left right)
  | .sub => .ok (onReals (· - ·) left right)
  | .mul => .ok (onReals (· * ·) left right)
  | .div =>
      if realIsZero right then .error (.exec "division by zero")
      else .ok (onReals (· / ·) left right)

/-- `NULL` absorbs, integers stay integers, the rest goes over to reals. -/
def arithmetic (op : ArithmeticOp) : Value → Value → Except Error Value
  | .null, _ => .ok .null
  | _, .null => .ok .null
  | .int left, .int right => (integerArithmetic op left right).map .int
  | left, right => do
      let leftNumber ← left.asNumber
      let rightNumber ← right.asNumber
      .real <$> realArithmetic op leftNumber rightNumber

/-- The orderings a comparison holds of. -/
def ComparisonOp.accepts : ComparisonOp → Ordering → Bool
  | .eq, ordering => ordering = .eq
  | .notEq, ordering => ordering ≠ .eq
  | .lt, ordering => ordering = .lt
  | .ltEq, ordering => ordering ≠ .gt
  | .gt, ordering => ordering = .gt
  | .gtEq, ordering => ordering ≠ .lt

/-- A comparison with `NULL` is `NULL`. -/
def compareOp (op : ComparisonOp) (left right : Value) : Except Error Value :=
  if left.isNull || right.isNull then .ok .null
  else (left.compareWith right).map fun ordering => .bool (op.accepts ordering)

/-- A definite `FALSE` or `TRUE` wins even against `NULL`. -/
def LogicOp.apply : LogicOp → Option Bool → Option Bool → Value
  | .and, some false, _ => .bool false
  | .and, _, some false => .bool false
  | .and, some true, some true => .bool true
  | .or, some true, _ => .bool true
  | .or, _, some true => .bool true
  | .or, some false, some false => .bool false
  | _, _, _ => .null

def logic (op : LogicOp) (left right : Value) : Except Error Value := do
  let leftTruth ← left.asBool
  let rightTruth ← right.asBool
  pure (op.apply leftTruth rightTruth)

def evalBinary : BinaryOp → Value → Value → Except Error Value
  | .arithmetic op, left, right => arithmetic op left right
  | .comparison op, left, right => compareOp op left right
  | .logic op, left, right => PrehniteDB.logic op left right

/-- Without a match a `NULL` in the list leaves the answer unknown. -/
def evalInList (probe : Value) (values : List Value) (hasNull : Bool) : Except Error Value :=
  if probe.isNull then .ok .null
  else search values
where
  search : List Value → Except Error Value
    | [] => .ok (if hasNull then .null else .bool false)
    | candidate :: rest => do
        if (← compareOp .eq probe candidate) = .bool true then pure (.bool true)
        else search rest

/-- `NOT` of what `IN` yields, which is a boolean or `NULL`. -/
def negateBool : Value → Value
  | .bool truth => .bool !truth
  | other => other

variable {Query : Type}

/-- The value of an expression in a row. -/
def eval (scope : Scope) (values : List Value) : Expr Query → Except Error Value
  | .null => .ok .null
  | .integer number => .ok (.int number)
  | .real bits => .ok (.real bits)
  | .str string => .ok (.text string)
  | .bool truth => .ok (.bool truth)
  | .column ref => (scope.resolve ref).map (column values)
  | .aggregate =>
      .error (.exec
        "aggregate functions are only allowed in a SELECT list or a HAVING clause")
  | .unary op expr => do
      evalUnary op (← eval scope values expr)
  | .binary op left right => do
      let leftValue ← eval scope values left
      let rightValue ← eval scope values right
      evalBinary op leftValue rightValue
  | .isNull expr negated => do
      let value ← eval scope values expr
      pure (.bool (value.isNull != negated))
  | .inList expr candidates hasNull negated => do
      let probe ← eval scope values expr
      let result ← evalInList probe candidates hasNull
      pure (if negated then negateBool result else result)
  | .inSubquery _ _ _ =>
      .error (.corruption "IN subquery was not pre-evaluated before filter execution")
  | .exists _ =>
      .error (.corruption "EXISTS subquery was not pre-evaluated before filter execution")
  | .scalarSubquery _ =>
      .error (.corruption "scalar subquery was not pre-evaluated before filter execution")
  | .correlatedExists _ =>
      .error (.corruption
        "correlated EXISTS subquery was not resolved before filter execution")
  | .correlatedScalarSubquery _ =>
      .error (.corruption
        "correlated scalar subquery was not resolved before filter execution")
  | .correlatedInSubquery _ _ _ =>
      .error (.corruption
        "correlated IN subquery was not resolved before filter execution")

/-- A predicate must come out as exactly `TRUE`. -/
def passesFilter
    (filter : Option (Expr Query))
    (scope : Scope)
    (values : List Value) : Except Error Bool :=
  match filter with
  | none => .ok true
  | some predicate =>
      (eval scope values predicate).map fun verdict => decide (verdict = .bool true)

end PrehniteDB
