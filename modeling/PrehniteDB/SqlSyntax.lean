import PrehniteDB.CatalogStatements
import PrehniteDB.GroupedSelect
import PrehniteDB.Joins

namespace PrehniteDB.Sql

open AccessPaths (OrderKey)
open GroupedSelect (Aggregate)
open ReadPaths (JoinKind)
open SchemaCodec (ColumnDef)

/-!
# Parsed statements

The syntax tree of a statement, whose expressions may hold statements again.
`parts` lists what lies in it at any depth: the statements nested in its
expressions, and its placeholders.
-/

/-- A table and the alias it has in the query. -/
structure TableRef where
  name : String
  tableAlias : Option String
  deriving Repr, DecidableEq

/-- What a qualified reference calls the table. -/
def TableRef.qualifier (table : TableRef) : String := table.tableAlias.getD table.name

/-- A join of the chain behind the base table. -/
structure Join (Predicate : Type) where
  kind : JoinKind
  table : TableRef
  /-- Only a `CROSS JOIN` has none. -/
  on : Option Predicate

/-- The base table and its joins, in order. -/
structure FromClause (Predicate : Type) where
  table : TableRef
  joins : List (Join Predicate)

mutual

/-- Expressions with their subqueries. -/
inductive Expr where
  | null
  | integer (number : Int64)
  | real (bits : UInt64)
  | str (string : String)
  | bool (truth : Bool)
  | placeholder (index : Nat)
  | column (ref : ColumnRef)
  | aggregate (call : Aggregate)
  | unary (op : UnaryOp) (expr : Expr)
  | binary (op : BinaryOp) (left right : Expr)
  | isNull (expr : Expr) (negated : Bool)
  | inSubquery (expr : Expr) (subquery : Statement) (negated : Bool)
  | exists_ (subquery : Statement)
  | scalarSubquery (subquery : Statement)
  | inList (expr : Expr) (values : List Expr) (hasNull negated : Bool)
  | correlatedExists (subquery : Statement)
  | correlatedScalarSubquery (subquery : Statement)
  | correlatedInSubquery (expr : Expr) (subquery : Statement) (negated : Bool)

/-- An item of a projection. -/
inductive SelectItem where
  | column (ref : ColumnRef)
  | aggregate (call : Aggregate)
  | expr (expr : Expr)

/-- What a `SELECT` answers of each row. -/
inductive Projection where
  | all
  | items (items : List SelectItem)

/-- A parsed statement. -/
inductive Statement where
  | createTable (name : String) (columns : List ColumnDef)
  | dropTable (name : String)
  | createIndex (name table : String) (columns : List String)
  | dropIndex (name : String)
  | insert (table : String) (columns : Option (List String)) (rows : List (List Expr))
  | select (source : FromClause Expr) (projection : Projection) (filter : Option Expr)
      (groupBy : List ColumnRef) (having : Option Expr) (orderBy : List OrderKey)
      (limit offset : Option UInt64)
  | update (table : String) (assignments : List (String × Expr)) (filter : Option Expr)
  | delete (table : String) (filter : Option Expr)
  | vacuum
  | analyze (table : String)
  | explain (inner : Statement) (analyze : Bool)
  | begin
  | commit
  | rollback

end

def Statement.isSelect : Statement → Bool
  | .select .. => true
  | _ => false

/-! ## The evaluator's expressions -/

/-- A candidate of an `IN` list. -/
def literalOf : Expr → Option Value
  | .null => some .null
  | .integer number => some (.int number)
  | .real bits => some (.real bits)
  | .str string => some (.text string)
  | .bool truth => some (.bool truth)
  | _ => none

/-- The expression for the evaluator, which knows no placeholders. -/
def Expr.evaluable : Expr → Option (PrehniteDB.Expr Statement)
  | .null => some .null
  | .integer number => some (.integer number)
  | .real bits => some (.real bits)
  | .str string => some (.str string)
  | .bool truth => some (.bool truth)
  | .placeholder _ => none
  | .column ref => some (.column ref)
  | .aggregate _ => some .aggregate
  | .unary op expr => expr.evaluable.map (.unary op)
  | .binary op left right => do
      let left ← left.evaluable
      let right ← right.evaluable
      some (.binary op left right)
  | .isNull expr negated => expr.evaluable.map (.isNull · negated)
  | .inSubquery expr subquery negated => expr.evaluable.map (.inSubquery · subquery negated)
  | .exists_ subquery => some (.exists subquery)
  | .scalarSubquery subquery => some (.scalarSubquery subquery)
  | .inList expr values hasNull negated => do
      let expr ← expr.evaluable
      let values ← values.mapM literalOf
      some (.inList expr values hasNull negated)
  | .correlatedExists subquery => some (.correlatedExists subquery)
  | .correlatedScalarSubquery subquery => some (.correlatedScalarSubquery subquery)
  | .correlatedInSubquery expr subquery negated =>
      expr.evaluable.map (.correlatedInSubquery · subquery negated)

/-! ## What lies in a statement -/

/-- What the walk over placeholders meets. -/
inductive Part where
  /-- The statement of an `IN (...)`, an `EXISTS (...)` or a scalar subquery. -/
  | nested (statement : Statement)
  | placeholder (index : Nat)

mutual

/-- The parts of an expression, in the order of the walk. -/
def Expr.parts : Expr → List Part
  | .null | .integer _ | .real _ | .str _ | .bool _ | .column _ | .aggregate _ => []
  | .placeholder index => [.placeholder index]
  | .unary _ expr => expr.parts
  | .binary _ left right => left.parts ++ right.parts
  | .isNull expr _ => expr.parts
  | .inSubquery expr subquery _ => expr.parts ++ .nested subquery :: subquery.parts
  | .exists_ subquery => .nested subquery :: subquery.parts
  | .scalarSubquery subquery => .nested subquery :: subquery.parts
  | .inList expr values _ _ => expr.parts ++ partsOfExprs values
  | .correlatedExists subquery => .nested subquery :: subquery.parts
  | .correlatedScalarSubquery subquery => .nested subquery :: subquery.parts
  | .correlatedInSubquery expr subquery _ => expr.parts ++ .nested subquery :: subquery.parts

def partsOfExprs : List Expr → List Part
  | [] => []
  | expr :: rest => expr.parts ++ partsOfExprs rest

def partsOfOption : Option Expr → List Part
  | none => []
  | some expr => expr.parts

def partsOfRows : List (List Expr) → List Part
  | [] => []
  | row :: rest => partsOfExprs row ++ partsOfRows rest

def Join.parts : Join Expr → List Part
  | ⟨_, _, on⟩ => partsOfOption on

def partsOfJoins : List (Join Expr) → List Part
  | [] => []
  | join :: rest => Join.parts join ++ partsOfJoins rest

def FromClause.parts : FromClause Expr → List Part
  | ⟨_, joins⟩ => partsOfJoins joins

def SelectItem.parts : SelectItem → List Part
  | .column _ | .aggregate _ => []
  | .expr expr => expr.parts

def partsOfItems : List SelectItem → List Part
  | [] => []
  | item :: rest => item.parts ++ partsOfItems rest

def Projection.parts : Projection → List Part
  | .all => []
  | .items items => partsOfItems items

def partsOfAssignment : String × Expr → List Part
  | (_, expr) => expr.parts

def partsOfAssignments : List (String × Expr) → List Part
  | [] => []
  | assignment :: rest => partsOfAssignment assignment ++ partsOfAssignments rest

/-- The parts of a statement, in the order of the walk. -/
def Statement.parts : Statement → List Part
  | .insert _ _ rows => partsOfRows rows
  | .select source projection filter _ having _ _ _ =>
      FromClause.parts source ++ projection.parts ++ partsOfOption filter ++
        partsOfOption having
  | .update _ assignments filter => partsOfAssignments assignments ++ partsOfOption filter
  | .delete _ filter => partsOfOption filter
  | .explain inner _ => inner.parts
  | .createTable .. | .dropTable _ | .createIndex .. | .dropIndex _ | .vacuum | .analyze _
  | .begin | .commit | .rollback => []

end

@[simp]
theorem partsOfJoins_eq (joins : List (Join Expr)) :
    partsOfJoins joins = joins.flatMap Join.parts := by
  induction joins with
  | nil => rfl
  | cons join rest inductionHypothesis => simp [partsOfJoins, inductionHypothesis]

@[simp]
theorem partsOfItems_eq (items : List SelectItem) :
    partsOfItems items = items.flatMap SelectItem.parts := by
  induction items with
  | nil => rfl
  | cons item rest inductionHypothesis => simp [partsOfItems, inductionHypothesis]

/-! ## Statements whose nested statements are `SELECT`s -/

/-- The test is passed by everything that lies in a statement, at any depth. -/
def Holds (test : Part → Bool) (parts : List Part) : Prop := ∀ part ∈ parts, test part

section Holds

variable (test : Part → Bool)

@[simp]
theorem holds_nil : Holds test [] := by simp [Holds]

@[simp]
theorem holds_cons (part : Part) (parts : List Part) :
    Holds test (part :: parts) ↔ test part ∧ Holds test parts := by
  simp [Holds]

@[simp]
theorem holds_append (left right : List Part) :
    Holds test (left ++ right) ↔ Holds test left ∧ Holds test right := by
  simp only [Holds, List.mem_append, or_imp, forall_and]

variable {test}

end Holds

@[simp]
def Part.isSelect : Part → Bool
  | .nested statement => statement.isSelect
  | .placeholder _ => true

/-- Every nested statement is a `SELECT`. -/
abbrev NestSelects (parts : List Part) : Prop := Holds Part.isSelect parts

end PrehniteDB.Sql
