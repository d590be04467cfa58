import PrehniteDB.KeyedFolds
import PrehniteDB.RowSorting

namespace PrehniteDB.GroupedSelect

open AccessPaths (OrderKey)
open ReadPaths (ColumnType)

/-!
# Grouped queries

One pass over the matched rows keeps the running aggregates of every group; the
groups are then finalised, judged by `HAVING`, ordered and projected.  `HAVING`
and the projected expressions are as they stand once their subqueries are run.
-/

/-! ## Aggregates -/

inductive AggregateFunc where
  | count
  | sum
  | avg
  | min
  | max
  deriving Repr, DecidableEq

/-- `*`, or the column. -/
inductive AggregateArg where
  | star
  | column (ref : ColumnRef)
  deriving Repr, DecidableEq

/-- A call of an aggregate function. -/
structure Aggregate where
  func : AggregateFunc
  arg : AggregateArg
  deriving Repr, DecidableEq

def funcName : AggregateFunc → String
  | .count => "COUNT"
  | .sum => "SUM"
  | .avg => "AVG"
  | .min => "MIN"
  | .max => "MAX"

/-- The heading of an aggregate. -/
def aggregateLabel (aggregate : Aggregate) : String :=
  match aggregate.arg with
  | .star => funcName aggregate.func ++ "(*)"
  | .column ref => funcName aggregate.func ++ "(" ++ ref.display ++ ")"

/-- A distinct aggregate with its resolved column, which only `COUNT(*)` lacks. -/
structure AggregateSlot where
  func : AggregateFunc
  column : Option Nat
  deriving Repr, DecidableEq

/-- The totals of `REAL`s are bit patterns. -/
inductive AggregateState where
  | count (number : UInt64)
  | sumInt (total : Int64) (seen : Bool)
  | sumReal (total : UInt64) (seen : Bool)
  | avgReal (total : UInt64) (number : UInt64)
  /-- `MIN` looks for a lesser value than the best, `MAX` for a greater. -/
  | extreme (best : Option Value) (want : Ordering)
  deriving Repr, DecidableEq

namespace AggregateState

def notNumeric (func : String) (column : ScopedColumn) : Error :=
  .exec
    (func ++ " requires a numeric column, but '" ++ column.name ++ "' is " ++
      PrehniteDB.ColumnType.display column.type)

/-- The state of an aggregate over no rows. -/
def forSlot (scope : Scope) (slot : AggregateSlot) : Except Error AggregateState :=
  let column := (slot.column.bind (scope[·]?)).getD { table := "", name := "", type := .int }
  match slot.func with
  | .count => .ok (.count 0)
  | .sum =>
      match column.type with
      | .int => .ok (.sumInt 0 false)
      | .real => .ok (.sumReal 0 false)
      | _ => .error (notNumeric "SUM" column)
  | .avg =>
      match column.type with
      | .int | .real => .ok (.avgReal 0 0)
      | _ => .error (notNumeric "AVG" column)
  | .min => .ok (.extreme none .lt)
  | .max => .ok (.extreme none .gt)

/-- What a sum beyond 64 bits answers. -/
def overflowed : Error := .exec "SUM overflowed a 64-bit integer"

/-- A state belongs to its slot, so the last case is never met. -/
def update
    (slot : AggregateSlot)
    (state : AggregateState)
    (row : List Value) : Except Error AggregateState :=
  match slot.func, slot.column, state with
  | .count, none, .count number => .ok (.count (number + 1))
  | .count, some position, .count number =>
      .ok (.count (if (column row position).isNull then number else number + 1))
  | .sum, some position, .sumInt total seen =>
      match column row position with
      | .int number =>
          match checked (total.toInt + number.toInt) with
          | some next => .ok (.sumInt next true)
          | none => .error overflowed
      | _ => .ok (.sumInt total seen)
  | .sum, some position, .sumReal total seen =>
      match column row position with
      | .real bits => .ok (.sumReal (onReals (· + ·) total bits) true)
      | _ => .ok (.sumReal total seen)
  | .avg, some position, .avgReal total seen =>
      match column row position with
      | .int number => .ok (.avgReal (onReals (· + ·) total (realOfInt number)) (seen + 1))
      | .real bits => .ok (.avgReal (onReals (· + ·) total bits) (seen + 1))
      | _ => .ok (.avgReal total seen)
  | .min, some position, .extreme best want | .max, some position, .extreme best want =>
      let value := column row position
      if value.isNull then .ok (.extreme best want)
      else
        let replace :=
          match best with
          | none => true
          | some current => decide (orderValues value current = want)
        .ok (.extreme (if replace then some value else best) want)
  | _, _, other => .ok other

/-- The value of an aggregate; no rows give `NULL`, but for `COUNT`. -/
def finalize : AggregateState → Value
  | .count number => .int number.toInt64
  | .sumInt total seen => if seen then .int total else .null
  | .sumReal total seen => if seen then .real total else .null
  | .avgReal total number =>
      if number = 0 then .null
      else .real (onReals (· / ·) total number.toFloat.toBits)
  | .extreme best _ => best.getD .null

end AggregateState

/-! ## Queries -/

/-- A `HAVING` predicate or a projected expression. -/
inductive GroupExpr where
  | null
  | integer (number : Int64)
  | real (bits : UInt64)
  | str (string : String)
  | bool (truth : Bool)
  | column (ref : ColumnRef)
  | aggregate (aggregate : Aggregate)
  | unary (op : UnaryOp) (expr : GroupExpr)
  | binary (op : BinaryOp) (left right : GroupExpr)
  | isNull (expr : GroupExpr) (negated : Bool)
  | inList (expr : GroupExpr) (values : List Value) (hasNull negated : Bool)
  | inSubquery (expr : GroupExpr)
  /-- Any other subquery. -/
  | subquery
  deriving Repr, DecidableEq

/-- An item of a grouped projection. -/
inductive SelectItem where
  | column (ref : ColumnRef)
  | aggregate (aggregate : Aggregate)
  | expr (expr : GroupExpr)
  deriving Repr, DecidableEq

/-- The clauses a grouped query reads. -/
structure Query where
  items : List SelectItem
  groupBy : List ColumnRef
  having : Option GroupExpr
  orderBy : List OrderKey
  deriving Repr, DecidableEq

/-- The distinct aggregates with their slots. -/
abbrev AggregateRegistry := List (Aggregate × AggregateSlot)

namespace AggregateRegistry

def resolveArg (scope : Scope) : AggregateArg → Except Error (Option Nat)
  | .star => .ok none
  | .column ref => (scope.resolve ref).map some

/-- An aggregate is computed once, wherever it stands. -/
def intern
    (scope : Scope)
    (registry : AggregateRegistry)
    (aggregate : Aggregate) : Except Error AggregateRegistry :=
  if registry.any fun entry => entry.1 = aggregate then .ok registry
  else do
    let column ← resolveArg scope aggregate.arg
    if column.isNone && aggregate.func ≠ .count then
      throw (.exec
        (funcName aggregate.func ++ "(*) is not allowed — " ++ funcName aggregate.func ++
          " needs a column"))
    pure (registry ++ [(aggregate, { func := aggregate.func, column })])

/-- The aggregates of an expression. -/
def collectInExpr
    (scope : Scope)
    (registry : AggregateRegistry) : GroupExpr → Except Error AggregateRegistry
  | .aggregate aggregate => intern scope registry aggregate
  | .unary _ expr | .isNull expr _ => collectInExpr scope registry expr
  | .binary _ left right => do
      collectInExpr scope (← collectInExpr scope registry left) right
  | .inSubquery expr | .inList expr _ _ _ => collectInExpr scope registry expr
  | _ => .ok registry

def collectInItem
    (scope : Scope)
    (registry : AggregateRegistry) : SelectItem → Except Error AggregateRegistry
  | .aggregate aggregate => intern scope registry aggregate
  | .expr expr => collectInExpr scope registry expr
  | .column _ => .ok registry

/-- The aggregates of the items and of `HAVING`. -/
def build
    (scope : Scope)
    (items : List SelectItem)
    (having : Option GroupExpr) : Except Error AggregateRegistry := do
  let registry ← items.foldlM (collectInItem scope) []
  match having with
  | some predicate => collectInExpr scope registry predicate
  | none => pure registry

def lookup (registry : AggregateRegistry) (aggregate : Aggregate) : Option Nat :=
  registry.findIdx? fun entry => entry.1 = aggregate

end AggregateRegistry

/-! ## Keys -/

/-- `REAL`s are told apart by their bits. -/
def valueEq : Value → Value → Bool
  | .null, .null => true
  | .int left, .int right => left = right
  | .real left, .real right => left = right
  | .text left, .text right => left = right
  | .bool left, .bool right => left = right
  | _, _ => false

/-- Equality of values in group keys, `NULL` included. -/
theorem valueEq_iff (left right : Value) : valueEq left right = true ↔ left = right := by
  cases left <;> cases right <;> simp [valueEq]

/-- The values of the grouping columns. -/
structure GroupKey where
  values : List Value
  deriving Repr

/-- Keys of one group; `NULL` equals `NULL` here. -/
def GroupKey.equal (left right : GroupKey) : Bool :=
  decide (left.values.length = right.values.length) &&
    (left.values.zip right.values).all fun pair => valueEq pair.1 pair.2

/-- Keys are equal where their values are. -/
theorem GroupKey.equal_iff (left right : GroupKey) : left.equal right = true ↔ left = right := by
  obtain ⟨left⟩ := left
  obtain ⟨right⟩ := right
  rw [GroupKey.mk.injEq]
  induction left generalizing right with
  | nil => cases right <;> simp [GroupKey.equal]
  | cons value rest inductionHypothesis =>
      cases right with
      | nil => simp [GroupKey.equal]
      | cons other later =>
          have tails := inductionHypothesis later
          simp only [GroupKey.equal, Bool.and_eq_true, decide_eq_true_eq] at tails ⊢
          rw [List.length_cons, List.length_cons, Nat.succ_inj, List.zip_cons_cons, List.all_cons,
            Bool.and_eq_true, valueEq_iff, List.cons.injEq, ← tails]
          exact and_left_comm

/-- The buckets go by the source's own equality. -/
instance : DecidableEq GroupKey := fun left right =>
  decidable_of_iff (left.equal right = true) (GroupKey.equal_iff left right)

/-! ## The query -/

/-- What is settled before the first row. -/
structure Prepared where
  groupCols : List Nat
  registry : AggregateRegistry
  template : List AggregateState

/-- A plain item has to be a grouping column. -/
def checkItem (scope : Scope) (groupCols : List Nat) : SelectItem → Except Error Unit
  | .column ref => do
      let column ← scope.resolve ref
      if groupCols.contains column then pure ()
      else
        throw (.exec
          ("column '" ++ ref.display ++ "' must appear in GROUP BY or inside an aggregate"))
  | _ => .ok ()

/-- The grouping columns and aggregates of a query. -/
def prepare (scope : Scope) (query : Query) : Except Error Prepared := do
  let groupCols ← query.groupBy.mapM scope.resolve
  query.items.forM (checkItem scope groupCols)
  let registry ← AggregateRegistry.build scope query.items query.having
  let template ← registry.mapM fun entry => AggregateState.forSlot scope entry.2
  pure { groupCols, registry, template }

/-- Each slot sees the row once. -/
def updateAll
    (slots : List AggregateSlot)
    (states : List AggregateState)
    (row : List Value) : Except Error (List AggregateState) :=
  match slots, states with
  | slot :: slots, state :: states => do
      let next ← state.update slot row
      let rest ← updateAll slots states row
      pure (next :: rest)
  | _, states => .ok states

def Prepared.slots (prepared : Prepared) : List AggregateSlot :=
  prepared.registry.map Prod.snd

/-- The group a row falls into. -/
def Prepared.keyOf (prepared : Prepared) (row : List Value) : GroupKey :=
  { values := prepared.groupCols.map (column row) }

/-- The hash pass, with the groups in the order of their first rows. -/
def hashPass (prepared : Prepared) (matched : List (List Value)) :
    Except Error (List (GroupKey × List AggregateState)) :=
  KeyedFolds.foldGroups prepared.template (updateAll prepared.slots) prepared.keyOf matched

/-- A group and the values of its aggregates. -/
structure Group where
  key : GroupKey
  aggregates : List Value
  deriving DecidableEq

/-- Without a `GROUP BY` there is one group, even of no rows. -/
def finalizeGroups
    (prepared : Prepared)
    (groups : List (GroupKey × List AggregateState)) : List Group :=
  let present :=
    if prepared.groupCols.isEmpty && groups.isEmpty then [(⟨[]⟩, prepared.template)] else groups
  present.map fun group =>
    { key := group.1, aggregates := group.2.map AggregateState.finalize }

section Evaluation

variable (scope : Scope) (prepared : Prepared)

def groupPosition (column : Nat) : Option Nat :=
  prepared.groupCols.findIdx? fun other => other = column

/-- Every aggregate of the query was registered, so the lookup finds it. -/
def aggregateValue (group : Group) (aggregate : Aggregate) : Except Error Value :=
  match prepared.registry.lookup aggregate with
  | some number => .ok (group.aggregates.getD number .null)
  | none => .error (.corruption "aggregate registered during build")

/-- An expression over a group: its key and its aggregates. -/
def evalGroupExpr (group : Group) : GroupExpr → Except Error Value
  | .null => .ok .null
  | .integer number => .ok (.int number)
  | .real bits => .ok (.real bits)
  | .str string => .ok (.text string)
  | .bool truth => .ok (.bool truth)
  | .aggregate aggregate => aggregateValue prepared group aggregate
  | .column ref => do
      let column ← scope.resolve ref
      match groupPosition prepared column with
      | some position => pure (PrehniteDB.column group.key.values position)
      | none =>
          throw (.exec
            ("column '" ++ ref.display ++
              "' must be a GROUP BY column or wrapped in an aggregate"))
  | .unary op expr => do
      evalUnary op (← evalGroupExpr group expr)
  | .binary op left right => do
      let leftValue ← evalGroupExpr group left
      let rightValue ← evalGroupExpr group right
      evalBinary op leftValue rightValue
  | .isNull expr negated => do
      let value ← evalGroupExpr group expr
      pure (.bool (value.isNull != negated))
  | .inList expr values hasNull negated => do
      let probe ← evalGroupExpr group expr
      let result ← evalInList probe values hasNull
      pure (if negated then negateBool result else result)
  | .inSubquery _ | .subquery =>
      .error (.corruption "subquery in grouped expression was not pre-evaluated")

/-- The group, if `HAVING` comes out as exactly `TRUE`. -/
def judge (having : Option GroupExpr) (group : Group) : Except Error (Option Group) :=
  match having with
  | none => .ok (some group)
  | some predicate =>
      (evalGroupExpr scope prepared group predicate).map fun verdict =>
        if verdict = .bool true then some group else none

/-- Groups are ordered by grouping columns alone. -/
def groupOrderKey (key : OrderKey) : Except Error (Nat × Bool) := do
  let column ← scope.resolve key.column
  match groupPosition prepared column with
  | some position => pure (position, key.descending)
  | none =>
      throw (.exec
        ("ORDER BY column '" ++ key.column.display ++ "' must be a GROUP BY column here"))

/-- A single group needs no order. -/
def orderGroups (orderBy : List OrderKey) (groups : List Group) : Except Error (List Group) :=
  if prepared.groupCols.isEmpty || orderBy.isEmpty then .ok groups
  else do
    let keys ← orderBy.mapM (groupOrderKey scope prepared)
    pure (groups.mergeSort fun left right =>
      decide (orderRows keys left.key.values right.key.values ≠ .gt))

def header : SelectItem → String
  | .column ref => ref.display
  | .aggregate aggregate => aggregateLabel aggregate
  | .expr _ => "?column?"

/-- The columns of the list were checked to be among those of the `GROUP BY`. -/
def projectItem (group : Group) : SelectItem → Except Error Value
  | .column ref => do
      let column ← scope.resolve ref
      match groupPosition prepared column with
      | some position => pure (PrehniteDB.column group.key.values position)
      | none => throw (.corruption "validated above")
  | .aggregate aggregate => aggregateValue prepared group aggregate
  | .expr expr => evalGroupExpr scope prepared group expr

end Evaluation

/-- `QueryResult::Rows`. -/
structure Answer where
  columns : List String
  rows : List (List Value)

/-- `HAVING`, order and projection of the finished groups. -/
def finish
    (scope : Scope)
    (query : Query)
    (prepared : Prepared)
    (groups : List Group) : Except Error Answer := do
  let judged ← groups.mapM (judge scope prepared query.having)
  let ordered ← orderGroups scope prepared query.orderBy judged.reduceOption
  let rows ← ordered.mapM fun group => query.items.mapM (projectItem scope prepared group)
  pure { columns := query.items.map header, rows }

/-- The whole pipeline over the rows the filter has let through. -/
def groupedSelect
    (scope : Scope)
    (query : Query)
    (matched : List (List Value)) : Except Error Answer := do
  let prepared ← prepare scope query
  let groups ← hashPass prepared matched
  finish scope query prepared (finalizeGroups prepared groups)

end PrehniteDB.GroupedSelect
