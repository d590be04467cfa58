import PrehniteDB.SqlSyntax

namespace PrehniteDB.Sql.Planner

open AccessPaths (AccessPath ColumnPredicate OrderKey)
open ReadPaths (JoinKind)
open SchemaCodec (Catalog Schema TablePlan)

/-!
# Planning and binding

The planner turns a statement into a plan: subqueries of a `WHERE` become joins,
chains of inner joins are put in another order, and a table that is read alone
is read by an index where one fits.  Binding replaces the placeholders of a plan
by values.
-/

/-- The plan of a `SELECT`. -/
structure SelectPlan where
  source : FromClause Expr
  projection : Projection
  filter : Option Expr
  /-- Of the base table; the joined ones are read in full. -/
  access : AccessPath
  groupBy : List ColumnRef
  having : Option Expr
  orderBy : List OrderKey
  /-- The access path yields the rows in this order. -/
  presorted : Bool
  limit : Option UInt64
  offset : Option UInt64

/-- A planned statement. -/
inductive Plan where
  | createTable (name : String) (table : TablePlan)
  | dropTable (name : String)
  | createIndex (name table : String) (columns : List String)
  | dropIndex (name : String)
  | insert (table : String) (columns : Option (List String)) (rows : List (List Expr))
  | select (query : SelectPlan)
  | update (table : String) (assignments : List (String × Expr)) (filter : Option Expr)
      (access : AccessPath)
  | delete (table : String) (filter : Option Expr) (access : AccessPath)
  | vacuum
  | analyze (table : String)
  | explain (inner : Plan) (analyze : Bool)

/-- What stops the planner. -/
inductive Stop where
  | error (error : Error)
  /-- `unreachable!`. -/
  | panic (message : String)

/-- A planning step, which asks the catalog or stops. -/
abbrev Planned := Except Stop

/-- What the catalog answers, or its error. -/
def asked {Answer : Type} (answer : Except Error Answer) : Planned Answer :=
  answer.mapError .error

theorem bind_ok
    {Fault First Second : Type}
    {first : Except Fault First}
    {next : First → Except Fault Second}
    {result : Second}
    (ran : (first >>= next) = .ok result) :
    ∃ value, first = .ok value ∧ next value = .ok result := by
  cases first with
  | error stop => cases ran
  | ok value => exact ⟨value, rfl, ran⟩

variable (catalog : Catalog)

def getSchema (name : String) : Planned (Option Schema) := asked (catalog.get name)

/-! ## Subqueries as joins -/

/-- The leaves of an `AND` chain. -/
def flattenAnd : Expr → List Expr
  | .binary (.logic .and) left right => flattenAnd left ++ flattenAnd right
  | other => [other]

/-- Grouped to the left. -/
def andAll (first : Expr) (rest : List Expr) : Expr :=
  rest.foldl (.binary (.logic .and)) first

/-- The conjunction of the predicates, if there is one. -/
def andChainOpt : List Expr → Option Expr
  | [] => none
  | first :: rest => some (andAll first rest)

/-- The qualifier already names a table of the outer query. -/
def outerUsesQualifier (source : FromClause Expr) (qualifier : String) : Bool :=
  source.table.qualifier = qualifier ||
    source.joins.any fun join => join.table.qualifier = qualifier

/-- A `SELECT` of one table with a `WHERE` and nothing else. -/
structure SimpleQuery where
  table : TableRef
  projection : Projection
  filter : Expr

/-- One table, one projection and a filter, with no other clause. -/
def simpleQuery : Statement → Option SimpleQuery
  | .select ⟨table, []⟩ projection (some filter) [] none [] none none =>
      some { table, projection, filter }
  | _ => none

/-- The subquery of an `EXISTS` or a `NOT EXISTS`, and whether it is the latter. -/
def existsOperand : Expr → Option (Bool × Statement)
  | .exists_ subquery => some (false, subquery)
  | .unary .not (.exists_ subquery) => some (true, subquery)
  | _ => none

def semiKind (negated : Bool) : JoinKind := if negated then .anti else .semi

/-- `[NOT] EXISTS` as a semi or anti join. -/
def tryExtractExistsJoin (expr : Expr) (source : FromClause Expr) :
    Planned (Option (Join Expr)) := do
  let some (negated, subquery) := existsOperand expr | pure none
  let some query := simpleQuery subquery | pure none
  match ← getSchema catalog query.table.name with
  | none => pure none
  | some _ =>
      if outerUsesQualifier source query.table.qualifier then pure none
      else pure (some { kind := semiKind negated, table := query.table, on := some query.filter })

/-- The one column that is projected. -/
def singleColumn : Projection → Option ColumnRef
  | .items [.column ref] => some ref
  | _ => none

/-- A name without a qualifier gets one. -/
def qualify (qualifier : String) (ref : ColumnRef) : ColumnRef :=
  { table := some (ref.table.getD qualifier), name := ref.name }

/-- `NOT IN` needs an inner column that is never `NULL`. -/
def negationSafe (negated : Bool) (schema : Schema) (inner : ColumnRef) : Bool :=
  !negated ||
    match schema.columnIndex? inner.name with
    | some position => (schema.columns.map SchemaCodec.Column.notNull).getD position false
    | none => false

/-- `[NOT] IN (SELECT ...)` as a semi or anti join. -/
def tryExtractInJoin (expr : Expr) (source : FromClause Expr) :
    Planned (Option (Join Expr)) := do
  let .inSubquery outer subquery negated := expr | pure none
  let some query := simpleQuery subquery | pure none
  let some inner := singleColumn query.projection | pure none
  match ← getSchema catalog query.table.name with
  | none => pure none
  | some schema =>
      if !negationSafe negated schema inner then pure none
      else if outerUsesQualifier source query.table.qualifier then pure none
      else
        match outer with
        | .column ref =>
            let equi := Expr.binary (.comparison .eq)
              (.column (qualify source.table.qualifier ref))
              (.column (qualify query.table.qualifier inner))
            pure (some {
              kind := semiKind negated
              table := query.table
              on := some (.binary (.logic .and) query.filter equi) })
        | _ => pure none

/-- Each conjunct becomes a join or stays in the filter. -/
def rewriteConjuncts :
    List Expr → FromClause Expr → List Expr → Planned (FromClause Expr × List Expr)
  | [], source, leftover => pure (source, leftover)
  | conjunct :: rest, source, leftover => do
      match ← tryExtractExistsJoin catalog conjunct source with
      | some join =>
          rewriteConjuncts rest { source with joins := source.joins ++ [join] } leftover
      | none =>
          match ← tryExtractInJoin catalog conjunct source with
          | some join =>
              rewriteConjuncts rest { source with joins := source.joins ++ [join] } leftover
          | none => rewriteConjuncts rest source (leftover ++ [conjunct])

/-- Each conjunct that can be a join becomes one. -/
def rewriteSubqueryJoins (source : FromClause Expr) (filter : Option Expr) :
    Planned (FromClause Expr × Option Expr) := do
  match filter with
  | none => pure (source, none)
  | some predicate =>
      let (rewritten, leftover) ← rewriteConjuncts catalog (flattenAnd predicate) source []
      pure (rewritten, andChainOpt leftover)

/-! ## The order of inner joins -/

/-- Longer chains keep the order they were written in. -/
def REORDER_CAP : Nat := 8

/-- The tables of a chain, in the order of the text. -/
structure Chain where
  tables : List TableRef
  rowCounts : List UInt64
  /-- The columns of each table that the catalog has. -/
  columns : List (List String)

/-- `None` when two tables go by the same qualifier. -/
def gatherTables : List TableRef → Chain → Planned (Option Chain)
  | [], chain => pure (some chain)
  | table :: rest, chain => do
      if chain.tables.any fun other => other.qualifier = table.qualifier then pure none
      else
        let schema ← getSchema catalog table.name
        gatherTables rest {
          tables := chain.tables ++ [table]
          rowCounts := chain.rowCounts ++ [(schema.map Schema.rowCount).getD 0]
          columns := chain.columns ++
            [(schema.map fun schema => schema.columns.map SchemaCodec.Column.name).getD []] }

def tableBit (position : Nat) : UInt32 := 1 <<< UInt32.ofNat position

/-- The tables with a column of this name; a table is listed once for each such column. -/
def Chain.owners (chain : Chain) (name : String) : List Nat :=
  chain.columns.zipIdx.flatMap fun entry =>
    (entry.1.filter fun column => column = name).map fun _ => entry.2

/-- The mask of the tables a predicate mentions; `None` where that is unclear. -/
def collectPredicateRefs (chain : Chain) : Expr → Option UInt32
  | .null | .integer _ | .real _ | .str _ | .bool _ | .placeholder _ => some 0
  | .column ref =>
      match ref.table with
      | some qualifier =>
          (chain.tables.findIdx? fun table => table.qualifier = qualifier).map tableBit
      | none =>
          match chain.owners ref.name with
          | [owner] => some (tableBit owner)
          | _ => none
  | .aggregate _ => none
  | .unary _ expr => collectPredicateRefs chain expr
  | .binary _ left right => do
      let leftRefs ← collectPredicateRefs chain left
      let rightRefs ← collectPredicateRefs chain right
      pure (leftRefs ||| rightRefs)
  | .isNull expr _ => collectPredicateRefs chain expr
  | .inSubquery expr _ _ | .correlatedInSubquery expr _ _ | .inList expr _ _ _ =>
      collectPredicateRefs chain expr
  | .exists_ _ | .scalarSubquery _ | .correlatedExists _ | .correlatedScalarSubquery _ => none

def U128_MAX : Nat := 2 ^ 128 - 1

/-- The tables joined so far, the last estimate and the sum of them. -/
structure Score where
  joined : UInt32
  intermediate : Nat
  cost : Nat

/-- The size of a prefix extended by one table. -/
def scoreStep (sizes : List UInt64) (predRefs : List UInt32) (score : Score) (new : Nat) :
    Score :=
  let size := max ((sizes.getD new 0).toNat) 1
  let mask := tableBit new
  let connected := predRefs.any fun refs =>
    refs ≠ 0 && refs &&& score.joined ≠ 0 && refs &&& mask ≠ 0 &&
      refs &&& ~~~(score.joined ||| mask) = 0
  let intermediate :=
    if connected then max score.intermediate size
    else min (score.intermediate * size) U128_MAX
  { joined := score.joined ||| mask
    intermediate
    cost := min (score.cost + intermediate) U128_MAX }

/-- The cost of an order: the sizes of its prefixes. -/
def scoreOrdering (sizes : List UInt64) (predRefs : List UInt32) : List Nat → Nat
  | [] => 0
  | first :: rest =>
      (rest.foldl (scoreStep sizes predRefs)
        { joined := tableBit first
          intermediate := max ((sizes.getD first 0).toNat) 1
          cost := 0 }).cost

/-- `swap` of the first item with another. -/
def swapFirst (items : List Nat) (position : Nat) : List Nat :=
  match items[0]?, items[position]? with
  | some first, some other => (items.set 0 other).set position first
  | _, _ => items

/-- The permutations of so many items, in the order in which they are visited. -/
def permute : Nat → List Nat → List (List Nat)
  | 0, _ => [[]]
  | number + 1, items =>
      (List.range (number + 1)).flatMap fun position =>
        match swapFirst items position with
        | [] => []
        | first :: rest => (permute number rest).map (first :: ·)

/-- The first of the cheapest orders. -/
def bestOrder (cost : List Nat → Nat) : List (List Nat) → List Nat → Nat → List Nat
  | [], best, _ => best
  | order :: rest, best, bestCost =>
      if cost order < bestCost then bestOrder cost rest order (cost order)
      else bestOrder cost rest best bestCost

/-- The step, from the second table on, at which each predicate is applied. -/
def assignPredicates (predRefs : List UInt32) : List Nat → UInt32 → List Nat → List (List Nat)
  | [], _, _ => []
  | table :: rest, joined, placed =>
      let nowJoined := joined ||| tableBit table
      let here := (List.range predRefs.length).filter fun position =>
        !placed.contains position && predRefs.getD position 0 &&& ~~~nowJoined = 0
      here :: assignPredicates predRefs rest nowJoined (placed ++ here)

/-- The predicates of one step; a step without any is a cross product. -/
def stepPredicate (predicates : List Expr) (here : List Nat) : Expr :=
  match here.filterMap fun position => predicates[position]? with
  | [] => .bool true
  | first :: rest => andAll first rest

/-- The join of the next table on the predicates that apply by then. -/
def stepJoin (chain : Chain) (predicates : List Expr) (step : Nat × List Nat) :
    Option (Join Expr) := do
  let table ← chain.tables[step.1]?
  pure { kind := .inner, table, on := some (stepPredicate predicates step.2) }

/-- The chain in another order. -/
def reorderedFrom
    (chain : Chain)
    (predicates : List Expr)
    (predRefs : List UInt32) : List Nat → Option (FromClause Expr)
  | [] => none
  | first :: rest => do
      let table ← chain.tables[first]?
      let assigned := assignPredicates predRefs rest (tableBit first) []
      let joins ← (rest.zip assigned).mapM (stepJoin chain predicates)
      pure { table, joins }

def reorderChain (source : FromClause Expr) (chain : Chain) (predicates : List Expr) :
    FromClause Expr :=
  match predicates.mapM (collectPredicateRefs chain) with
  | none => source
  | some predRefs =>
      let identity := List.range chain.tables.length
      let best := bestOrder (scoreOrdering chain.rowCounts predRefs)
        (permute chain.tables.length identity) identity U128_MAX
      if best = identity then source
      else (reorderedFrom chain predicates predRefs best).getD source

/-- Inner joins in the cheapest order. -/
def reorderInnerChain (source : FromClause Expr) : Planned (FromClause Expr) := do
  if source.joins.isEmpty || source.joins.any (fun join => join.kind ≠ .inner) ||
      REORDER_CAP < 1 + source.joins.length then pure source
  else
    match ← gatherTables catalog (source.table :: source.joins.map Join.table)
        { tables := [], rowCounts := [], columns := [] } with
    | none => pure source
    | some chain =>
        match source.joins.mapM Join.on with
        | none => pure source
        | some predicates => pure (reorderChain source chain predicates)

/-! ## Plans -/

/-- The first name that an earlier one equals. -/
def repeatedColumn (names : List String) : Option String :=
  (names.zipIdx.find? fun entry => (names.take entry.2).contains entry.1).map Prod.fst

/-- One row of `VALUES`, with its position. -/
def checkWidth (names : List String) (entry : List Expr × Nat) : Except Error Unit :=
  if entry.1.length ≠ names.length then
    throw (.exec
      ("INSERT row " ++ toString (entry.2 + 1) ++ " supplies " ++ toString entry.1.length ++
        " value(s) but " ++ toString names.length ++ " column(s) were listed"))
  else pure ()

/-- No column named twice, and every row of the width of the list. -/
def checkInsert (columns : Option (List String)) (rows : List (List Expr)) : Except Error Unit := do
  match columns with
  | none => pure ()
  | some names =>
      match repeatedColumn names with
      | some column => throw (.exec ("INSERT lists column '" ++ column ++ "' twice"))
      | none => forM rows.zipIdx (checkWidth names)

/-- The schema as the choice of an access path sees it. -/
def paths (schema : Schema) : AccessPaths.Schema where
  columns := schema.columns.map fun column => { name := column.name, type := column.type }
  indexes := schema.indexes.map fun index =>
    { columns := index.columns, root := index.root, isBuilding := index.isBuilding }

def classify (schema : AccessPaths.Schema) (conjunct : Expr) : Option ColumnPredicate :=
  conjunct.evaluable.bind (AccessPaths.classify schema)

/-- The path of the best index, and whether it gives the rows in the order asked for. -/
def chooseIndex
    (schema : AccessPaths.Schema)
    (filter : Expr)
    (orderBy : List OrderKey) : AccessPath × Bool :=
  let predicates := (flattenAnd filter).filterMap (classify schema)
  match AccessPaths.bestIndex predicates schema.indexes with
  | some (index, plan) =>
      (.indexScan index.root plan.lower plan.upper,
        AccessPaths.orderMatches index plan.pinned schema orderBy)
  | none => (.fullScan, false)

/-- The access path of the base table, and whether it gives the order. -/
def chooseAccess (table : String) (filter : Option Expr) (orderBy : List OrderKey) :
    Planned (AccessPath × Bool) := do
  match filter with
  | none => pure (.fullScan, false)
  | some predicate =>
      match ← getSchema catalog table with
      | none => pure (.fullScan, false)
      | some schema => pure (chooseIndex (paths schema) predicate orderBy)

def planSelect
    (source : FromClause Expr)
    (projection : Projection)
    (filter : Option Expr)
    (groupBy : List ColumnRef)
    (having : Option Expr)
    (orderBy : List OrderKey)
    (limit offset : Option UInt64) : Planned SelectPlan := do
  let (rewritten, leftover) ← rewriteSubqueryJoins catalog source filter
  let reordered ← reorderInnerChain catalog rewritten
  let (access, presorted) ←
    if reordered.joins.isEmpty then
      chooseAccess catalog reordered.table.name leftover orderBy
    else pure (.fullScan, false)
  pure {
    source := reordered
    projection
    filter := leftover
    access
    groupBy
    having
    orderBy
    presorted := presorted && groupBy.isEmpty
    limit
    offset }

/-- The plan of a statement; an `EXPLAIN` holds that of the explained one. -/
def plan : Statement → Planned Plan
  | .createTable name columns => do
      let table ← asked (SchemaCodec.planCreateTable catalog name columns)
      pure (.createTable name table)
  | .dropTable name => pure (.dropTable name)
  | .createIndex name table columns => pure (.createIndex name table columns)
  | .dropIndex name => pure (.dropIndex name)
  | .insert table columns rows => do
      asked (checkInsert columns rows)
      pure (.insert table columns rows)
  | .select source projection filter groupBy having orderBy limit offset => do
      let query ← planSelect catalog source projection filter groupBy having orderBy limit offset
      pure (.select query)
  | .update table assignments filter => do
      let (access, _) ← chooseAccess catalog table filter []
      pure (.update table assignments filter access)
  | .delete table filter => do
      let (access, _) ← chooseAccess catalog table filter []
      pure (.delete table filter access)
  | .vacuum => pure .vacuum
  | .analyze table => do
      match ← getSchema catalog table with
      | none => throw (.error (.exec ("no such table: '" ++ table ++ "'")))
      | some _ => pure (.analyze table)
  | .explain inner analyze => do
      let innerPlan ← plan inner
      pure (.explain innerPlan analyze)
  | .begin | .commit | .rollback =>
      throw (.panic "transaction control is handled before planning")

/-! ## Binding -/

def valueToExpr : Value → Expr
  | .null => .null
  | .int number => .integer number
  | .real bits => .real bits
  | .text string => .str string
  | .bool truth => .bool truth

/-- The value of a placeholder, or an error for one without a value. -/
def bindPlaceholder (params : List Value) (index : Nat) : Except Error Expr :=
  match params[index]? with
  | some value => .ok (valueToExpr value)
  | none =>
      .error (.exec
        ("bind: placeholder $" ++ toString (index + 1) ++ " has no matching parameter (got " ++
          toString params.length ++ " params)"))

section Binding

variable (params : List Value)

mutual

/-- The expression with its placeholders replaced. -/
def bindExpr : Expr → Except Error Expr
  | .placeholder index => bindPlaceholder params index
  | .null => .ok .null
  | .integer number => .ok (.integer number)
  | .real bits => .ok (.real bits)
  | .str string => .ok (.str string)
  | .bool truth => .ok (.bool truth)
  | .column ref => .ok (.column ref)
  | .aggregate call => .ok (.aggregate call)
  | .unary op expr => return .unary op (← bindExpr expr)
  | .binary op left right => do
      let boundLeft ← bindExpr left
      let boundRight ← bindExpr right
      pure (.binary op boundLeft boundRight)
  | .isNull expr negated => return .isNull (← bindExpr expr) negated
  | .inSubquery expr subquery negated => do
      let boundExpr ← bindExpr expr
      let boundSubquery ← bindStatement subquery
      pure (.inSubquery boundExpr boundSubquery negated)
  | .correlatedInSubquery expr subquery negated => do
      let boundExpr ← bindExpr expr
      let boundSubquery ← bindStatement subquery
      pure (.correlatedInSubquery boundExpr boundSubquery negated)
  | .exists_ subquery => return .exists_ (← bindStatement subquery)
  | .correlatedExists subquery => return .correlatedExists (← bindStatement subquery)
  | .scalarSubquery subquery => return .scalarSubquery (← bindStatement subquery)
  | .correlatedScalarSubquery subquery =>
      return .correlatedScalarSubquery (← bindStatement subquery)
  | .inList expr values hasNull negated => do
      let boundExpr ← bindExpr expr
      let boundValues ← bindExprs values
      pure (.inList boundExpr boundValues hasNull negated)

def bindExprs : List Expr → Except Error (List Expr)
  | [] => .ok []
  | expr :: rest => do
      let boundExpr ← bindExpr expr
      let boundRest ← bindExprs rest
      pure (boundExpr :: boundRest)

def bindOption : Option Expr → Except Error (Option Expr)
  | none => .ok none
  | some expr => return some (← bindExpr expr)

def bindJoin : Join Expr → Except Error (Join Expr)
  | ⟨kind, table, on⟩ => return ⟨kind, table, ← bindOption on⟩

def bindJoins : List (Join Expr) → Except Error (List (Join Expr))
  | [] => .ok []
  | join :: rest => do
      let boundJoin ← bindJoin join
      let boundRest ← bindJoins rest
      pure (boundJoin :: boundRest)

def bindFrom : FromClause Expr → Except Error (FromClause Expr)
  | ⟨table, joins⟩ => return ⟨table, ← bindJoins joins⟩

def bindItem : SelectItem → Except Error SelectItem
  | .expr expr => return .expr (← bindExpr expr)
  | .column ref => .ok (.column ref)
  | .aggregate call => .ok (.aggregate call)

def bindItems : List SelectItem → Except Error (List SelectItem)
  | [] => .ok []
  | item :: rest => do
      let boundItem ← bindItem item
      let boundRest ← bindItems rest
      pure (boundItem :: boundRest)

def bindProjection : Projection → Except Error Projection
  | .all => .ok .all
  | .items items => return .items (← bindItems items)

/-- Only a `SELECT` is gone into. -/
def bindStatement : Statement → Except Error Statement
  | .select source projection filter groupBy having orderBy limit offset => do
      let boundSource ← bindFrom source
      let boundProjection ← bindProjection projection
      let boundFilter ← bindOption filter
      let boundHaving ← bindOption having
      pure (.select boundSource boundProjection boundFilter groupBy boundHaving orderBy limit
        offset)
  | other => .ok other

end

def bindAssignment (assignment : String × Expr) : Except Error (String × Expr) := do
  let bound ← bindExpr params assignment.2
  pure (assignment.1, bound)

/-- Every placeholder of a plan replaced. -/
def bindPlan : Plan → Except Error Plan
  | .insert table columns rows => return .insert table columns (← rows.mapM (bindExprs params))
  | .select query => do
      let source ← bindFrom params query.source
      let projection ← bindProjection params query.projection
      let filter ← bindOption params query.filter
      let having ← bindOption params query.having
      pure (.select { query with source, projection, filter, having })
  | .update table assignments filter access => do
      let boundAssignments ← assignments.mapM (bindAssignment params)
      let boundFilter ← bindOption params filter
      pure (.update table boundAssignments boundFilter access)
  | .delete table filter access => return .delete table (← bindOption params filter) access
  | .explain inner analyze => return .explain (← bindPlan inner) analyze
  | other => .ok other

end Binding

end PrehniteDB.Sql.Planner
