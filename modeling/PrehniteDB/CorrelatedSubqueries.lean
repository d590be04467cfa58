import PrehniteDB.SqlPlans

namespace PrehniteDB.Sql.Correlation

open Planner (valueToExpr)
open SchemaCodec (Catalog)

/-!
# Correlated subqueries

A subquery that refers to an outer row is run for each outer row, with the values
of the row in the place of the references that its own tables do not resolve.
What plans and runs a statement is a parameter.  `Reading` says what an
expression means where its references and its subqueries have a meaning.
-/

/-! ## Running a subquery -/

/-- The rows of a `SELECT`. -/
structure ResultRows where
  columns : List String
  rows : List (Vector Value columns.length)

/-- What a statement answers. -/
inductive QueryResult where
  | rows (result : ResultRows)
  | ack (message : String)

section Running

variable (run : Statement → Except Error QueryResult)

/-- The values of the only column. -/
def runSubqueryForRows (kind : String) (subquery : Statement) : Except Error (List Value) := do
  match ← run subquery with
  | .ack _ => throw (.exec (kind ++ " subquery argument must be a SELECT"))
  | .rows result =>
      if single : result.columns.length = 1 then
        pure (result.rows.map fun row => row[0])
      else
        throw (.exec
          (kind ++ " subquery must return 1 column(s); got " ++
            toString result.columns.length))

/-- The candidates, and whether there was a `NULL` among them. -/
def executeInSubquery (subquery : Statement) : Except Error (List Value × Bool) := do
  let values ← runSubqueryForRows run "IN" subquery
  pure (values.filter (!·.isNull), values.any Value.isNull)

/-- Whether the subquery answers a row. -/
def executeExistsSubquery (subquery : Statement) : Except Error Bool := do
  match ← run subquery with
  | .rows result => pure (!result.rows.isEmpty)
  | .ack _ => throw (.exec "EXISTS argument must be a SELECT")

/-- The only value, `NULL` for none, an error for more. -/
def executeScalarSubquery (subquery : Statement) : Except Error Value := do
  match ← runSubqueryForRows run "scalar" subquery with
  | [] => pure .null
  | [value] => pure value
  | values =>
      throw (.exec
        ("scalar subquery returned " ++ toString values.length ++
          " rows; at most one was expected"))

end Running

/-! ## Substitution -/

/-- The columns of a table under its qualifier. -/
def tableScope (table : TableRef) (schema : SchemaCodec.Schema) : Scope :=
  schema.columns.map fun column =>
    { table := table.qualifier, name := column.name, type := column.type }

section Substitution

variable (catalog : Catalog)

/-- The scope of a table that has to exist. -/
def requireScope (table : TableRef) : Except Error Scope := do
  match ← catalog.get table.name with
  | some schema => pure (tableScope table schema)
  | none => throw (.exec ("no such table: " ++ table.name))

/-- The scopes of the joined tables behind that of the base table. -/
def extendScope : List (Join Expr) → Scope → Except Error Scope
  | [], scope => .ok scope
  | join :: rest, scope => do
      let joined ← requireScope catalog join.table
      extendScope rest (scope ++ joined)

/-- The columns of the subquery's own tables. -/
def subqueryInnerScope : Statement → Except Error Scope
  | .select source _ _ _ _ _ _ _ => do
      let base ← requireScope catalog source.table
      extendScope catalog source.joins base
  | _ => .ok []

variable (inner outer : Scope) (row : List Value)

/-- Nested statements are not gone into: they have scopes of their own. -/
def substituteInExpr : Expr → Except Error Expr
  | .column ref =>
      match inner.resolve ref with
      | .ok _ => .ok (.column ref)
      | .error _ => do
          let position ← outer.resolve ref
          pure (valueToExpr (column row position))
  | .unary op expr => return .unary op (← substituteInExpr expr)
  | .isNull expr negated => return .isNull (← substituteInExpr expr) negated
  | .binary op left right => do
      let newLeft ← substituteInExpr left
      let newRight ← substituteInExpr right
      pure (.binary op newLeft newRight)
  | .inList expr values hasNull negated =>
      return .inList (← substituteInExpr expr) values hasNull negated
  | .inSubquery expr subquery negated =>
      return .inSubquery (← substituteInExpr expr) subquery negated
  | .correlatedInSubquery expr subquery negated =>
      return .correlatedInSubquery (← substituteInExpr expr) subquery negated
  | other => .ok other

/-- The substitution in a clause. -/
def substituteInOption : Option Expr → Except Error (Option Expr)
  | none => .ok none
  | some expr => return some (← substituteInExpr inner outer row expr)

def substituteInItem : SelectItem → Except Error SelectItem
  | .expr expr => return .expr (← substituteInExpr inner outer row expr)
  | other => .ok other

def substituteInProjection : Projection → Except Error Projection
  | .all => .ok .all
  | .items items => return .items (← items.mapM (substituteInItem inner outer row))

/-- The `ON`s, the `GROUP BY` and the `ORDER BY` stay as they are. -/
def substituteInStatement : Statement → Except Error Statement
  | .select source projection filter groupBy having orderBy limit offset => do
      let newFilter ← substituteInOption inner outer row filter
      let newHaving ← substituteInOption inner outer row having
      let newProjection ← substituteInProjection inner outer row projection
      pure (.select source newProjection newFilter groupBy newHaving orderBy limit offset)
  | other => .ok other

/-- Names that the subquery does not know become values of the outer row. -/
def substituteOuterRefs (subquery : Statement) : Except Error Statement := do
  let inner ← subqueryInnerScope catalog subquery
  substituteInStatement inner outer row subquery

end Substitution

/-! ## Preparing a predicate -/

/-- Whether the expression has a reference that the scope rejects. -/
def hasOuterRef (scope : Scope) : Expr → Bool
  | .column ref =>
      match scope.resolve ref with
      | .ok _ => false
      | .error _ => true
  | .unary _ expr | .isNull expr _ | .inList expr _ _ _ | .inSubquery expr _ _
  | .correlatedInSubquery expr _ _ => hasOuterRef scope expr
  | .binary _ left right => hasOuterRef scope left || hasOuterRef scope right
  | _ => false

/-- The literal of a value. -/
def valueToLiteral : Value → PrehniteDB.Expr Statement
  | .null => .null
  | .int number => .integer number
  | .real bits => .real bits
  | .text string => .str string
  | .bool truth => .bool truth

section Preparation

variable (catalog : Catalog)

/-- The scope of a table, if it exists. -/
def findScope (table : TableRef) : Except Error (Option Scope) := do
  let schema ← catalog.get table.name
  pure (schema.map (tableScope table))

def extendFound : List (Join Expr) → Scope → Except Error (Option Scope)
  | [], scope => .ok (some scope)
  | join :: rest, scope => do
      match ← findScope catalog join.table with
      | none => pure none
      | some joined => extendFound rest (scope ++ joined)

/-- Only the `WHERE` is looked at.  A missing table is left to the planner. -/
def subqueryIsCorrelated : Statement → Except Error Bool
  | .select source _ (some filter) _ _ _ _ _ => do
      match ← findScope catalog source.table with
      | none => pure false
      | some base =>
          match ← extendFound catalog source.joins base with
          | none => pure false
          | some inner => pure (hasOuterRef inner filter)
  | _ => .ok false

/-- Runs what need not be run for each outer row, and marks the rest. -/
def prepareSubqueries (run : Statement → Except Error QueryResult) :
    PrehniteDB.Expr Statement → Except Error (PrehniteDB.Expr Statement)
  | .unary op expr => do
      let prepared ← prepareSubqueries run expr
      pure (.unary op prepared)
  | .isNull expr negated => do
      let prepared ← prepareSubqueries run expr
      pure (.isNull prepared negated)
  | .binary op left right => do
      let preparedLeft ← prepareSubqueries run left
      let preparedRight ← prepareSubqueries run right
      pure (.binary op preparedLeft preparedRight)
  | .inList expr values hasNull negated => do
      let prepared ← prepareSubqueries run expr
      pure (.inList prepared values hasNull negated)
  | .inSubquery expr subquery negated => do
      let prepared ← prepareSubqueries run expr
      if ← subqueryIsCorrelated catalog subquery then
        pure (.correlatedInSubquery prepared subquery negated)
      else
        let found ← executeInSubquery run subquery
        pure (.inList prepared found.1 found.2 negated)
  | .exists subquery => do
      if ← subqueryIsCorrelated catalog subquery then pure (.correlatedExists subquery)
      else
        let any ← executeExistsSubquery run subquery
        pure (.bool any)
  | .scalarSubquery subquery => do
      if ← subqueryIsCorrelated catalog subquery then pure (.correlatedScalarSubquery subquery)
      else
        let value ← executeScalarSubquery run subquery
        pure (valueToLiteral value)
  | other => .ok other

end Preparation

/-! ## Resolving a predicate -/

/-- The predicate with its correlated subqueries run for one outer row. -/
def resolveCorrelated
    (catalog : Catalog)
    (run : Statement → Except Error QueryResult)
    (outer : Scope)
    (row : List Value) : PrehniteDB.Expr Statement → Except Error (PrehniteDB.Expr Statement)
  | .correlatedExists subquery => do
      let substituted ← substituteOuterRefs catalog outer row subquery
      let any ← executeExistsSubquery run substituted
      pure (.bool any)
  | .correlatedScalarSubquery subquery => do
      let substituted ← substituteOuterRefs catalog outer row subquery
      let value ← executeScalarSubquery run substituted
      pure (valueToLiteral value)
  | .correlatedInSubquery expr subquery negated => do
      let substituted ← substituteOuterRefs catalog outer row subquery
      let found ← executeInSubquery run substituted
      let resolved ← resolveCorrelated catalog run outer row expr
      pure (.inList resolved found.1 found.2 negated)
  | .unary op expr => do
      let resolved ← resolveCorrelated catalog run outer row expr
      pure (.unary op resolved)
  | .binary op left right => do
      let resolvedLeft ← resolveCorrelated catalog run outer row left
      let resolvedRight ← resolveCorrelated catalog run outer row right
      pure (.binary op resolvedLeft resolvedRight)
  | .isNull expr negated => do
      let resolved ← resolveCorrelated catalog run outer row expr
      pure (.isNull resolved negated)
  | .inList expr values hasNull negated => do
      let resolved ← resolveCorrelated catalog run outer row expr
      pure (.inList resolved values hasNull negated)
  | other => .ok other

/-! ## What a predicate means -/

/-- What references and subqueries mean. -/
structure Reading where
  column : ColumnRef → Except Error Value
  existence : Statement → Except Error Value
  scalar : Statement → Except Error Value
  membership : Value → Statement → Except Error Value

def negateWhen (negated : Bool) (value : Value) : Value :=
  if negated then negateBool value else value

/-- What the expression means. -/
def Reading.value (reading : Reading) : PrehniteDB.Expr Statement → Except Error Value
  | .null => .ok .null
  | .integer number => .ok (.int number)
  | .real bits => .ok (.real bits)
  | .str string => .ok (.text string)
  | .bool truth => .ok (.bool truth)
  | .column ref => reading.column ref
  | .aggregate =>
      .error (.exec "aggregate functions are only allowed in a SELECT list or a HAVING clause")
  | .unary op expr => do evalUnary op (← reading.value expr)
  | .binary op left right => do
      let leftValue ← reading.value left
      let rightValue ← reading.value right
      evalBinary op leftValue rightValue
  | .isNull expr negated => do
      let value ← reading.value expr
      pure (.bool (value.isNull != negated))
  | .inList expr candidates hasNull negated => do
      let probe ← reading.value expr
      let result ← evalInList probe candidates hasNull
      pure (negateWhen negated result)
  | .exists subquery | .correlatedExists subquery => reading.existence subquery
  | .scalarSubquery subquery | .correlatedScalarSubquery subquery => reading.scalar subquery
  | .inSubquery expr subquery negated | .correlatedInSubquery expr subquery negated => do
      let probe ← reading.value expr
      let result ← reading.membership probe subquery
      pure (negateWhen negated result)

/-- `x = v1 OR x = v2 OR ...`, up to the first that is `TRUE`. -/
def anyEqual (probe : Value) : List Value → Except Error Value
  | [] => .ok (.bool false)
  | candidate :: rest => do
      let here ← compareOp .eq probe candidate
      if here = .bool true then pure here
      else
        let later ← anyEqual probe rest
        PrehniteDB.logic .or here later

/-- `NULL` is a member of nothing, and of nothing is it certain that it is not. -/
def isMember (probe : Value) (values : List Value) : Except Error Value :=
  if probe.isNull then .ok .null else anyEqual probe values

/-! ## Which references are outer ones -/

/-- The references of a level, without those of nested statements. -/
def refsOf : Expr → List ColumnRef
  | .column ref => [ref]
  | .unary _ expr | .isNull expr _ | .inList expr _ _ _ | .inSubquery expr _ _
  | .correlatedInSubquery expr _ _ => refsOf expr
  | .binary _ left right => refsOf left ++ refsOf right
  | _ => []

/-- Every reference outside nested statements replaced by an expression. -/
def replaceRefs (place : ColumnRef → Expr) : Expr → Expr
  | .column ref => place ref
  | .unary op expr => .unary op (replaceRefs place expr)
  | .isNull expr negated => .isNull (replaceRefs place expr) negated
  | .binary op left right => .binary op (replaceRefs place left) (replaceRefs place right)
  | .inList expr values hasNull negated => .inList (replaceRefs place expr) values hasNull negated
  | .inSubquery expr subquery negated => .inSubquery (replaceRefs place expr) subquery negated
  | .correlatedInSubquery expr subquery negated =>
      .correlatedInSubquery (replaceRefs place expr) subquery negated
  | other => other

def refsOfItem : SelectItem → List ColumnRef
  | .expr expr => refsOf expr
  | _ => []

def replaceInItem (place : ColumnRef → Expr) : SelectItem → SelectItem
  | .expr expr => .expr (replaceRefs place expr)
  | other => other

def refsOfProjection : Projection → List ColumnRef
  | .all => []
  | .items items => items.flatMap refsOfItem

def replaceInProjection (place : ColumnRef → Expr) : Projection → Projection
  | .all => .all
  | .items items => .items (items.map (replaceInItem place))

/-- Those of the `WHERE`, the `HAVING` and the projected expressions. -/
def refsOfSubquery : Statement → List ColumnRef
  | .select _ projection filter _ having _ _ _ =>
      filter.toList.flatMap refsOf ++ having.toList.flatMap refsOf ++ refsOfProjection projection
  | _ => []

/-- The references of a subquery, its own nested ones left alone. -/
def replaceInSubquery (place : ColumnRef → Expr) : Statement → Statement
  | .select source projection filter groupBy having orderBy limit offset =>
      .select source (replaceInProjection place projection) (filter.map (replaceRefs place)) groupBy
        (having.map (replaceRefs place)) orderBy limit offset
  | other => other

section Scoping

variable (inner outer : Scope) (row : List Value)

/-- A column of the subquery's own tables, however many of them have it. -/
def isOwn (ref : ColumnRef) : Bool := inner.any ref.names

/-- The reference, or the value of the outer row that it stands for. -/
def scopedRef (ref : ColumnRef) : Expr :=
  if isOwn inner ref then .column ref
  else
    match outer.resolve ref with
    | .ok position => valueToExpr (column row position)
    | .error _ => .column ref

/-- Every reference that is none to the subquery's own tables is one to the outer row. -/
def Refers (refs : List ColumnRef) : Prop :=
  ∀ ref ∈ refs, isOwn inner ref = false → ∃ position, outer.resolve ref = .ok position

/-- No two of the subquery's own columns answer to one reference. -/
def Unambiguous (refs : List ColumnRef) : Prop :=
  ∀ ref ∈ refs, isOwn inner ref = true → ∃ position, inner.resolve ref = .ok position

end Scoping

/-! ## What a subquery means -/

/-- The tables of a `FROM`. -/
def tablesOf : Statement → List TableRef
  | .select source _ _ _ _ _ _ _ => source.table :: source.joins.map Join.table
  | _ => []

/-- The columns a table reference brings into scope. -/
def columnsOf (catalog : Catalog) (table : TableRef) : Option Scope :=
  match catalog.get table.name with
  | .ok (some schema) =>
      some (schema.columns.map fun column =>
        { table := table.qualifier, name := column.name, type := column.type })
  | _ => none

/-- The columns of all the tables, if every one of them exists. -/
def ownColumns (catalog : Catalog) (subquery : Statement) : Option Scope :=
  ((tablesOf subquery).mapM (columnsOf catalog)).map List.flatten

/-- The subquery for one outer row. -/
def scopedSubquery
    (catalog : Catalog)
    (outer : Scope)
    (row : List Value)
    (subquery : Statement) : Option Statement :=
  (ownColumns catalog subquery).map fun inner => replaceInSubquery (scopedRef inner outer row) subquery

namespace ResultRows

/-- The values of a relation of one column. -/
def singleColumn (result : ResultRows) : Option (List Value) :=
  if single : result.columns.length = 1 then
    some (result.rows.map fun row => row[0])
  else none

/-- `EXISTS`: whether there is a row. -/
def existence (result : ResultRows) : Value := .bool (decide (0 < result.rows.length))

/-- `NULL` for no value, the value if there is one, and nothing for more. -/
def atMostOne (values : List Value) : Option Value :=
  match values.length with
  | 0 => some .null
  | 1 => values.head?
  | _ => none

/-- The value of a scalar subquery, where it has one. -/
def scalar (result : ResultRows) : Option Value := result.singleColumn.bind atMostOne

end ResultRows

/-- The rows of a statement, if it ran and is a query. -/
def rowsOf : Except Error QueryResult → Option ResultRows
  | .ok (.rows result) => some result
  | _ => none

/-- The rows for one outer row, where the subquery has any. -/
def relationOf
    (catalog : Catalog)
    (run : Statement → Except Error QueryResult)
    (outer : Scope)
    (row : List Value)
    (subquery : Statement) : Option ResultRows :=
  (scopedSubquery catalog outer row subquery).bind fun closed => rowsOf (run closed)

/-- Where the meaning is undefined the statement fails. -/
def valueOf {Result : Type} : Option Result → Except Error Result
  | some result => .ok result
  | none => .error (.exec "the subquery has no value")

/-- What a predicate means for one outer row. -/
def outerReading
    (catalog : Catalog)
    (run : Statement → Except Error QueryResult)
    (outer : Scope)
    (row : List Value) : Reading where
  column ref := (outer.resolve ref).map (column row)
  existence subquery :=
    valueOf ((relationOf catalog run outer row subquery).map ResultRows.existence)
  scalar subquery := valueOf ((relationOf catalog run outer row subquery).bind ResultRows.scalar)
  membership probe subquery := do
    let values ←
      valueOf ((relationOf catalog run outer row subquery).bind ResultRows.singleColumn)
    isMember probe values

end PrehniteDB.Sql.Correlation
