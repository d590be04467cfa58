import PrehniteDB.SqlSyntax
import PrehniteDB.SqlTokens
import PrehniteDB.TokenParser

namespace PrehniteDB.Sql

open AccessPaths (OrderKey)
open GroupedSelect (Aggregate AggregateArg AggregateFunc)
open ReadPaths (JoinKind)
open ReadPaths (ColumnType ForeignKeyAction)
open SchemaCodec (ColumnConstraint ColumnDef)
open TokenParser (Input advance eat loop peek remember)

/-!
# The parser

A recursive-descent parser.  The functions of the grammar get those they come
back to, for an expression and a statement inside another one, as `nested`; the
number of rounds bounds their loops and how deep they go.  The memory counts the
placeholders seen.
-/

abbrev Parser := TokenParser.Parser Token Nat Error

/-- What the grammar comes back to. -/
structure Nested where
  expr : Parser Expr
  statement : Parser Statement

namespace Parser

variable (rules : TextRules) (rounds : Nat)

/-! ## Tokens -/

def exhausted : Error := .exhausted "the parser's depth"

/-- `{:?}` of what `peek` or `advance` yields. -/
def debugFound : Option Token → String
  | some token => "Some(" ++ token.debug rules ++ ")"
  | none => "None"

/-- Take the token if it comes next. -/
def eatToken (want : Token) : Parser Bool := do
  let found ← eat fun token => if token = want then some () else none
  pure found.isSome

def eatKeyword (word : Keyword) : Parser Bool := eatToken (.keyword word)

/-- Consumes the next token if it is one of these words. -/
def eatAny (words : List Keyword) : Parser (Option Keyword) :=
  eat fun token => words.find? fun word => token = .keyword word

/-- The token, or an error that names what stands there. -/
def expect (want : Token) : Parser Unit := do
  if ← eatToken want then pure ()
  else
    let found ← peek
    throw (.parse ("expected " ++ want.debug rules ++ ", found " ++ debugFound rules found))

def expectKeyword (word : Keyword) : Parser Unit := do
  if ← eatKeyword word then pure ()
  else
    let found ← peek
    throw (.parse ("expected keyword " ++ word.debug ++ ", found " ++ debugFound rules found))

def expectName : Parser String := do
  match ← advance with
  | some (.ident name) => pure name
  | found => throw (.parse ("expected a name, found " ++ debugFound rules found))

/-- `name` or `table.name`. -/
def expectColumnRef : Parser ColumnRef := do
  let first ← expectName rules
  if ← eatToken .dot then
    let name ← expectName rules
    pure { table := some first, name }
  else pure { table := none, name := first }

/-- One item of a list, and the comma or parenthesis behind it. -/
def closedRound
    {Item : Type}
    (what : String)
    (item : Parser Item)
    (items : List Item) : Parser (List Item ⊕ List Item) := do
  let next ← item
  match ← advance with
  | some .comma => pure (.inl (items ++ [next]))
  | some .rParen => pure (.inr (items ++ [next]))
  | found =>
      throw (.parse ("expected ',' or ')' in " ++ what ++ ", found " ++ debugFound rules found))

/-- Items with a comma after each but the last, and a parenthesis after that. -/
def closedList {Item : Type} (what : String) (item : Parser Item) : Parser (List Item) :=
  loop exhausted (closedRound rules what item) rounds []

/-- One item of a list without parentheses. -/
def commaRound {Item : Type} (item : Parser Item) (items : List Item) :
    Parser (List Item ⊕ List Item) := do
  let next ← item
  if ← eatToken .comma then pure (.inl (items ++ [next]))
  else pure (.inr (items ++ [next]))

/-- Items as long as a comma follows. -/
def commaList {Item : Type} (item : Parser Item) : Parser (List Item) :=
  loop exhausted (commaRound item) rounds []

/-! ## Schema statements -/

/-- The spellings of the four column types. -/
def typeName : Parser ColumnType := do
  match ← advance with
  | some (.keyword .int) | some (.keyword .integer) => pure .int
  | some (.keyword .text) => pure .text
  | some (.keyword .real) | some (.keyword .float) => pure .real
  | some (.keyword .bool) | some (.keyword .boolean) => pure .bool
  | found =>
      throw (.parse
        ("expected a column type (INT, TEXT, REAL, BOOL), found " ++ debugFound rules found))

/-- `ON DELETE`, `RESTRICT` where it is left out. -/
def onDelete : Parser ForeignKeyAction := do
  if ← eatKeyword .on then
    expectKeyword rules .delete
    match ← eatAny [.cascade, .set, .restrict, .no] with
    | some .cascade => pure .cascade
    | some .set =>
        expectKeyword rules .null
        pure .setNull
    | some .restrict => pure .restrict
    | some _ =>
        expectKeyword rules .action
        pure .restrict
    | none =>
        let found ← peek
        throw (.parse
          ("expected CASCADE / SET NULL / RESTRICT / NO ACTION after ON DELETE, found " ++
            debugFound rules found))
  else pure .restrict

/-- One constraint, or the end of them. -/
def columnConstraint : Parser (Option ColumnConstraint) := do
  match ← eatAny [.primary, .not, .unique, .references] with
  | some .primary =>
      expectKeyword rules .key
      pure (some .primaryKey)
  | some .not =>
      expectKeyword rules .null
      pure (some .notNull)
  | some .unique => pure (some .unique)
  | some _ =>
      let table ← expectName rules
      expect rules .lParen
      let column ← expectName rules
      expect rules .rParen
      let action ← onDelete rules
      pure (some (.references table column action))
  | none => pure none

def constraintRound (constraints : List ColumnConstraint) :
    Parser (List ColumnConstraint ⊕ List ColumnConstraint) := do
  match ← columnConstraint rules with
  | some constraint => pure (.inl (constraints ++ [constraint]))
  | none => pure (.inr constraints)

def columnConstraints : Parser (List ColumnConstraint) :=
  loop exhausted (constraintRound rules) rounds []

/-- `name type constraint...` -/
def columnDef : Parser ColumnDef := do
  let name ← expectName rules
  let type ← typeName rules
  let constraints ← columnConstraints rules rounds
  pure { name, type, constraints }

/-- `TABLE name (column, ...)` -/
def createTable : Parser Statement := do
  expectKeyword rules .table
  let name ← expectName rules
  expect rules .lParen
  let columns ← closedList rules rounds "column list" (columnDef rules rounds)
  pure (.createTable name columns)

/-- `INDEX name ON table (column, ...)` -/
def createIndex : Parser Statement := do
  expectKeyword rules .index
  let name ← expectName rules
  expectKeyword rules .on
  let table ← expectName rules
  expect rules .lParen
  let columns ← closedList rules rounds "column list" (expectName rules)
  pure (.createIndex name table columns)

/-- What `CREATE` creates. -/
def create : Parser Statement := do
  expectKeyword rules .create
  match ← peek with
  | some (.keyword .table) => createTable rules rounds
  | some (.keyword .index) => createIndex rules rounds
  | found =>
      throw (.parse
        ("expected TABLE or INDEX after CREATE, found " ++ debugFound rules found))

/-- `DROP TABLE name` or `DROP INDEX name`. -/
def dropStatement : Parser Statement := do
  expectKeyword rules .drop
  match ← eatAny [.table, .index] with
  | some .table =>
      let name ← expectName rules
      pure (.dropTable name)
  | some _ =>
      let name ← expectName rules
      pure (.dropIndex name)
  | none =>
      let found ← peek
      throw (.parse
        ("expected TABLE or INDEX after DROP, found " ++ debugFound rules found))

/-! ## Clauses without expressions -/

/-- `AS name`, or a bare name. -/
def optionalAlias : Parser (Option String) := do
  if ← eatKeyword .as then
    let name ← expectName rules
    pure (some name)
  else
    eat fun token =>
      match token with
      | .ident name => some name
      | _ => none

def tableRef : Parser TableRef := do
  let name ← expectName rules
  let tableAlias ← optionalAlias rules
  pure { name, tableAlias }

/-- The name may be in any case. -/
def aggregateFunc (name : String) : Except Error AggregateFunc :=
  match String.ofList (name.toList.map Char.toUpper) with
  | "COUNT" => .ok .count
  | "SUM" => .ok .sum
  | "AVG" => .ok .avg
  | "MIN" => .ok .min
  | "MAX" => .ok .max
  | _ => .error (.parse ("unknown function '" ++ name ++ "'"))

/-- Behind the name of the call. -/
def parseAggregateCall (name : String) : Parser Aggregate := do
  let func ← (aggregateFunc name : Except Error AggregateFunc)
  expect rules .lParen
  let arg ←
    if ← eatToken .star then pure AggregateArg.star
    else AggregateArg.column <$> expectColumnRef rules
  expect rules .rParen
  pure { func, arg }

/-- `GROUP BY column, ...` -/
def optionalGroupBy : Parser (List ColumnRef) := do
  if ← eatKeyword .group then
    expectKeyword rules .by_
    commaList rounds (expectColumnRef rules)
  else pure []

/-- `column [ASC | DESC]` -/
def orderKey : Parser OrderKey := do
  let column ← expectColumnRef rules
  match ← eatAny [.desc, .asc] with
  | some .desc => pure { column, descending := true }
  | _ => pure { column, descending := false }

def optionalOrderBy : Parser (List OrderKey) := do
  if ← eatKeyword .order then
    expectKeyword rules .by_
    commaList rounds (orderKey rules)
  else pure []

/-- A count that is not negative. -/
def expectCount (clause : String) : Parser UInt64 := do
  match ← advance with
  | some (.integer number) =>
      if 0 ≤ number then pure number.toUInt64
      else
        throw (.parse
          (clause ++ " expects a non-negative integer, found " ++
            debugFound rules (some (.integer number))))
  | found =>
      throw (.parse
        (clause ++ " expects a non-negative integer, found " ++ debugFound rules found))

/-- `LIMIT count [OFFSET count]` -/
def optionalLimit : Parser (Option UInt64 × Option UInt64) := do
  if ← eatKeyword .limit then
    let limit ← expectCount rules "LIMIT"
    if ← eatKeyword .offset then
      let offset ← expectCount rules "OFFSET"
      pure (some limit, some offset)
    else pure (some limit, none)
  else pure (none, none)

/-! ## Expressions -/

variable (nested : Nested)

/-- Behind the `(` of an `IN` or an `EXISTS`, and before its `)`. -/
def parenthesised {Inner : Type} (inner : Parser Inner) : Parser Inner := do
  let content ← inner
  expect rules .rParen
  pure content

/-- Literals, names, calls, parentheses and `EXISTS`. -/
def primary : Parser Expr := do
  match ← advance with
  | some (.integer number) => pure (.integer number)
  | some (.real bits) => pure (.real bits)
  | some (.str string) => pure (.str string)
  | some (.keyword .true) => pure (.bool true)
  | some (.keyword .false) => pure (.bool false)
  | some (.keyword .null) => pure .null
  | some .question =>
      let index ← remember (· + 1)
      pure (.placeholder index)
  | some (.keyword .exists_) =>
      expect rules .lParen
      let statement ← parenthesised rules nested.statement
      pure (.exists_ statement)
  | some (.ident name) =>
      match ← peek with
      | some .lParen =>
          let call ← parseAggregateCall rules name
          pure (.aggregate call)
      | some .dot =>
          expect rules .dot
          let column ← expectName rules
          pure (.column { table := some name, name := column })
      | _ => pure (.column { table := none, name })
  | some .lParen =>
      match ← peek with
      | some (.keyword .select) =>
          let statement ← parenthesised rules nested.statement
          pure (.scalarSubquery statement)
      | _ => parenthesised rules nested.expr
  | found => throw (.parse ("expected an expression, found " ++ debugFound rules found))

/-- `IS [NOT] NULL` behind an operand. -/
def postfixExpr : Parser Expr := do
  let inner ← primary rules nested
  if ← eatKeyword .is then
    let negated ← eatKeyword .not
    expectKeyword rules .null
    pure (.isNull inner negated)
  else pure inner

/-- Any number of minus signs. -/
def unary : Nat → Parser Expr
  | 0 => throw exhausted
  | signs + 1 => do
      if ← eatToken .minus then
        let expr ← unary signs
        pure (.unary .neg expr)
      else postfixExpr rules nested

/-- One operator of a level and its right operand. -/
def operatorRound (operator : Token → Option BinaryOp) (operand : Parser Expr) (left : Expr) :
    Parser (Expr ⊕ Expr) := do
  match ← eat operator with
  | some op =>
      let right ← operand
      pure (.inl (.binary op left right))
  | none => pure (.inr left)

/-- Operands with operators between them, grouped to the left. -/
def leftAssociative (operator : Token → Option BinaryOp) (operand : Parser Expr) :
    Parser Expr := do
  let first ← operand
  loop exhausted (operatorRound operator operand) rounds first

def multiplicativeOp : Token → Option BinaryOp
  | .star => some (.arithmetic .mul)
  | .slash => some (.arithmetic .div)
  | _ => none

def multiplicative : Parser Expr :=
  leftAssociative rounds multiplicativeOp (unary rules nested rounds)

def additiveOp : Token → Option BinaryOp
  | .plus => some (.arithmetic .add)
  | .minus => some (.arithmetic .sub)
  | _ => none

def additive : Parser Expr :=
  leftAssociative rounds additiveOp (multiplicative rules rounds nested)

def comparisonOp : Token → Option BinaryOp
  | .eq => some (.comparison .eq)
  | .notEq => some (.comparison .notEq)
  | .lt => some (.comparison .lt)
  | .ltEq => some (.comparison .ltEq)
  | .gt => some (.comparison .gt)
  | .gtEq => some (.comparison .gtEq)
  | _ => none

/-- Whether `IN` or `NOT IN` comes, which stays where it is. -/
def membershipNext : Parser (Option Bool) := fun input =>
  .ok
    (match input.tokens with
      | .keyword .not :: .keyword .in_ :: _ => some true
      | .keyword .in_ :: _ => some false
      | _ => none,
    input)

/-- Behind `IN`. -/
def membership (left : Expr) (negated : Bool) : Parser Expr := do
  expect rules .lParen
  let statement ← parenthesised rules nested.statement
  pure (.inSubquery left statement negated)

/-- A comparison or a membership test on what stands to the left. -/
def comparisonRound (left : Expr) : Parser (Expr ⊕ Expr) := do
  match ← eat comparisonOp with
  | some op =>
      let right ← additive rules rounds nested
      pure (.inl (.binary op left right))
  | none =>
      match ← membershipNext with
      | some negated =>
          if negated then expectKeyword rules .not
          expectKeyword rules .in_
          let next ← membership rules nested left negated
          pure (.inl next)
      | none => pure (.inr left)

def comparison : Parser Expr := do
  let left ← additive rules rounds nested
  loop exhausted (comparisonRound rules rounds nested) rounds left

/-- Any number of `NOT`s. -/
def notExpr : Nat → Parser Expr
  | 0 => throw exhausted
  | words + 1 => do
      if ← eatKeyword .not then
        let expr ← notExpr words
        pure (.unary .not expr)
      else comparison rules rounds nested

/-- An operator that is a keyword. -/
def keywordOp (word : Keyword) (op : BinaryOp) : Token → Option BinaryOp := fun token =>
  if token = .keyword word then some op else none

def andExpr : Parser Expr :=
  leftAssociative rounds (keywordOp .and (.logic .and)) (notExpr rules rounds nested rounds)

def orExpr : Parser Expr :=
  leftAssociative rounds (keywordOp .or (.logic .or)) (andExpr rules rounds nested)

/-- The loosest level. -/
def expr : Parser Expr := orExpr rules rounds nested

/-! ## Statements with expressions -/

def optionalClause (word : Keyword) : Parser (Option Expr) := do
  if ← eatKeyword word then
    let predicate ← expr rules rounds nested
    pure (some predicate)
  else pure none

def optionalWhere : Parser (Option Expr) := optionalClause rules rounds nested .where_

def optionalHaving : Parser (Option Expr) := optionalClause rules rounds nested .having

/-- The column list of an `INSERT`. -/
def insertColumns : Parser (Option (List String)) := do
  if ← eatToken .lParen then
    let names ← closedList rules rounds "column list" (expectName rules)
    pure (some names)
  else pure none

/-- One row of `VALUES`. -/
def insertRow : Parser (List Expr) := do
  expect rules .lParen
  closedList rules rounds "value list" (expr rules rounds nested)

/-- `INSERT INTO table [(columns)] VALUES (row), ...` -/
def insert : Parser Statement := do
  expectKeyword rules .insert
  expectKeyword rules .into
  let table ← expectName rules
  let columns ← insertColumns rules rounds
  expectKeyword rules .values
  let rows ← commaList rounds (insertRow rules rounds nested)
  pure (.insert table columns rows)

/-- A bare column and an aggregate are items of their own. -/
def selectItem : Expr → SelectItem
  | .column ref => .column ref
  | .aggregate call => .aggregate call
  | other => .expr other

/-- `*`, or the items before `FROM`. -/
def projection : Parser Projection := do
  if ← eatToken .star then pure .all
  else
    let items ← commaList rounds (do
      let item ← expr rules rounds nested
      pure (selectItem item))
    pure (.items items)

/-- The words before a joined table, if there is one. -/
def joinKind : Parser (Option JoinKind) := do
  match ← eatAny [.join, .inner, .left, .cross] with
  | some .join => pure (some .inner)
  | some .inner =>
      expectKeyword rules .join
      pure (some .inner)
  | some .left =>
      expectKeyword rules .join
      pure (some .left)
  | some _ =>
      expectKeyword rules .join
      pure (some .cross)
  | none => pure none

/-- `ON predicate`, which `CROSS JOIN` lacks. -/
def joinOn (kind : JoinKind) : Parser (Option Expr) := do
  if kind = .cross then pure none
  else
    expectKeyword rules .on
    let predicate ← expr rules rounds nested
    pure (some predicate)

def joinRound (joins : List (Join Expr)) : Parser (List (Join Expr) ⊕ List (Join Expr)) := do
  match ← joinKind rules with
  | some kind =>
      let joined ← tableRef rules
      let on ← joinOn rules rounds nested kind
      pure (.inl (joins ++ [{ kind, table := joined, on }]))
  | none => pure (.inr joins)

/-- The base table and its joins. -/
def parseFrom : Parser (FromClause Expr) := do
  let table ← tableRef rules
  let joins ← loop exhausted (joinRound rules rounds nested) rounds []
  pure { table, joins }

/-- `SELECT`, its clauses in the order of the grammar. -/
def select : Parser Statement := do
  expectKeyword rules .select
  let items ← projection rules rounds nested
  expectKeyword rules .from_
  let source ← parseFrom rules rounds nested
  let filter ← optionalWhere rules rounds nested
  let groupBy ← optionalGroupBy rules rounds
  let having ← optionalHaving rules rounds nested
  let orderBy ← optionalOrderBy rules rounds
  let (limit, offset) ← optionalLimit rules
  pure (.select source items filter groupBy having orderBy limit offset)

/-- `column = value` -/
def assignment : Parser (String × Expr) := do
  let column ← expectName rules
  expect rules .eq
  let value ← expr rules rounds nested
  pure (column, value)

/-- `UPDATE table SET assignment, ... [WHERE predicate]` -/
def update : Parser Statement := do
  expectKeyword rules .update
  let table ← expectName rules
  expectKeyword rules .set
  let assignments ← commaList rounds (assignment rules rounds nested)
  let filter ← optionalWhere rules rounds nested
  pure (.update table assignments filter)

/-- `DELETE FROM table [WHERE predicate]` -/
def delete : Parser Statement := do
  expectKeyword rules .delete
  expectKeyword rules .from_
  let table ← expectName rules
  let filter ← optionalWhere rules rounds nested
  pure (.delete table filter)

def analyze : Parser Statement := do
  expectKeyword rules .analyze
  let table ← expectName rules
  pure (.analyze table)

/-- The statement to explain has to start with `SELECT`. -/
def explain : Parser Statement := do
  expectKeyword rules .explain
  let analyze ← eatKeyword .analyze
  match ← peek with
  | some (.keyword .select) =>
      let inner ← nested.statement
      pure (.explain inner analyze)
  | _ =>
      throw (.parse
        (if analyze then "EXPLAIN ANALYZE must be followed by a SELECT"
        else "EXPLAIN must be followed by a SELECT"))

/-- A statement of one word. -/
def word (keyword : Keyword) (parsed : Statement) : Parser Statement := do
  expectKeyword rules keyword
  pure parsed

/-- The statement its first keyword announces. -/
def statement : Parser Statement := do
  match ← peek with
  | some (.keyword .select) => select rules rounds nested
  | some (.keyword .insert) => insert rules rounds nested
  | some (.keyword .create) => create rules rounds
  | some (.keyword .drop) => dropStatement rules
  | some (.keyword .update) => update rules rounds nested
  | some (.keyword .delete) => delete rules rounds nested
  | some (.keyword .vacuum) => word rules .vacuum .vacuum
  | some (.keyword .analyze) => analyze rules
  | some (.keyword .explain) => explain rules nested
  | some (.keyword .begin) => word rules .begin .begin
  | some (.keyword .commit) => word rules .commit .commit
  | some (.keyword .rollback) => word rules .rollback .rollback
  | some found =>
      throw (.parse ("expected the start of a statement, found " ++ found.debug rules))
  | none => throw (.parse "empty statement")

end Parser

/-! ## Whole texts -/

open Sql.Parser

/-- The grammar whose functions come back to themselves at most so often. -/
def grammar (rules : TextRules) (rounds : Nat) : Nat → Nested
  | 0 => { expr := throw exhausted, statement := throw exhausted }
  | depth + 1 =>
      { expr := expr rules rounds (grammar rules rounds depth)
        statement := statement rules rounds (grammar rules rounds depth) }

/-- One statement and perhaps a semicolon. -/
def wholeStatement (rules : TextRules) (nested : Nested) : Parser Statement := do
  let parsed ← nested.statement
  let _ ← eatToken .semicolon
  match ← peek with
  | some extra =>
      throw (.parse ("unexpected input after statement: " ++ extra.debug rules))
  | none => pure parsed

/-- Parse with a bound on the depth, behind which the input counts as exhausted. -/
def parseWithin (rules : TextRules) (depth : Nat) (input : String) : Except Error Statement := do
  let tokens ← tokenize rules input
  let (parsed, _) ← wholeStatement rules (grammar rules depth depth) { tokens, memory := 0 }
  pure parsed

end PrehniteDB.Sql
