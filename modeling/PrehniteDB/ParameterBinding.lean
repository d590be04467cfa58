import PrehniteDB.SqlPlans

namespace PrehniteDB.Sql.Planner

/-!
# Binding and inlining

Inlining writes the values of the parameters as literals into a statement, before
it is planned.  A bound plan is the plan of the inlined statement, but for the
access path, which the planner has chosen without the values.
-/

section Inlining

variable (params : List Value)

/-- A placeholder without a value stays. -/
def inlinePlaceholder (index : Nat) : Expr :=
  match params[index]? with
  | some value => valueToExpr value
  | none => .placeholder index

mutual

/-- An expression with literals for its placeholders. -/
def inlineExpr : Expr → Expr
  | .placeholder index => inlinePlaceholder params index
  | .null => .null
  | .integer number => .integer number
  | .real bits => .real bits
  | .str string => .str string
  | .bool truth => .bool truth
  | .column ref => .column ref
  | .aggregate call => .aggregate call
  | .unary op expr => .unary op (inlineExpr expr)
  | .binary op left right => .binary op (inlineExpr left) (inlineExpr right)
  | .isNull expr negated => .isNull (inlineExpr expr) negated
  | .inSubquery expr subquery negated =>
      .inSubquery (inlineExpr expr) (inlineStatement subquery) negated
  | .correlatedInSubquery expr subquery negated =>
      .correlatedInSubquery (inlineExpr expr) (inlineStatement subquery) negated
  | .exists_ subquery => .exists_ (inlineStatement subquery)
  | .correlatedExists subquery => .correlatedExists (inlineStatement subquery)
  | .scalarSubquery subquery => .scalarSubquery (inlineStatement subquery)
  | .correlatedScalarSubquery subquery => .correlatedScalarSubquery (inlineStatement subquery)
  | .inList expr values hasNull negated =>
      .inList (inlineExpr expr) (inlineExprs values) hasNull negated

def inlineExprs : List Expr → List Expr
  | [] => []
  | expr :: rest => inlineExpr expr :: inlineExprs rest

def inlineOption : Option Expr → Option Expr
  | none => none
  | some expr => some (inlineExpr expr)

def inlineRows : List (List Expr) → List (List Expr)
  | [] => []
  | row :: rest => inlineExprs row :: inlineRows rest

def inlineJoin : Join Expr → Join Expr
  | ⟨kind, table, on⟩ => ⟨kind, table, inlineOption on⟩

def inlineJoins : List (Join Expr) → List (Join Expr)
  | [] => []
  | join :: rest => inlineJoin join :: inlineJoins rest

def inlineFrom : FromClause Expr → FromClause Expr
  | ⟨table, joins⟩ => ⟨table, inlineJoins joins⟩

def inlineItem : SelectItem → SelectItem
  | .expr expr => .expr (inlineExpr expr)
  | .column ref => .column ref
  | .aggregate call => .aggregate call

def inlineItems : List SelectItem → List SelectItem
  | [] => []
  | item :: rest => inlineItem item :: inlineItems rest

def inlineProjection : Projection → Projection
  | .all => .all
  | .items items => .items (inlineItems items)

def inlineAssignment : String × Expr → String × Expr
  | (column, expr) => (column, inlineExpr expr)

def inlineAssignments : List (String × Expr) → List (String × Expr)
  | [] => []
  | assignment :: rest => inlineAssignment assignment :: inlineAssignments rest

/-- A statement with literals for its placeholders. -/
def inlineStatement : Statement → Statement
  | .insert table columns rows => .insert table columns (inlineRows rows)
  | .select source projection filter groupBy having orderBy limit offset =>
      .select (inlineFrom source) (inlineProjection projection) (inlineOption filter) groupBy
        (inlineOption having) orderBy limit offset
  | .update table assignments filter =>
      .update table (inlineAssignments assignments) (inlineOption filter)
  | .delete table filter => .delete table (inlineOption filter)
  | .explain inner analyze => .explain (inlineStatement inner) analyze
  | .createTable name columns => .createTable name columns
  | .dropTable name => .dropTable name
  | .createIndex name table columns => .createIndex name table columns
  | .dropIndex name => .dropIndex name
  | .vacuum => .vacuum
  | .analyze table => .analyze table
  | .begin => .begin
  | .commit => .commit
  | .rollback => .rollback

end

end Inlining

section

variable {params : List Value}

@[simp]
theorem inlineExprs_eq (exprs : List Expr) :
    inlineExprs params exprs = exprs.map (inlineExpr params) := by
  induction exprs with
  | nil => rfl
  | cons expr rest inductionHypothesis => rw [inlineExprs, inductionHypothesis, List.map_cons]

@[simp]
theorem inlineOption_eq (expr : Option Expr) :
    inlineOption params expr = expr.map (inlineExpr params) := by
  cases expr <;> rfl

@[simp]
theorem inlineRows_eq (rows : List (List Expr)) :
    inlineRows params rows = rows.map fun row => row.map (inlineExpr params) := by
  induction rows with
  | nil => rfl
  | cons row rest inductionHypothesis =>
      rw [inlineRows, inductionHypothesis, inlineExprs_eq, List.map_cons]

@[simp]
theorem inlineJoin_kind (join : Join Expr) : (inlineJoin params join).kind = join.kind := by
  cases join
  rfl

@[simp]
theorem inlineJoin_table (join : Join Expr) : (inlineJoin params join).table = join.table := by
  cases join
  rfl

@[simp]
theorem inlineJoin_on (join : Join Expr) :
    (inlineJoin params join).on = join.on.map (inlineExpr params) := by
  cases join with
  | mk kind table on => exact inlineOption_eq on

@[simp]
theorem inlineJoins_eq (joins : List (Join Expr)) :
    inlineJoins params joins = joins.map (inlineJoin params) := by
  induction joins with
  | nil => rfl
  | cons join rest inductionHypothesis => rw [inlineJoins, inductionHypothesis, List.map_cons]

@[simp]
theorem inlineFrom_table (source : FromClause Expr) :
    (inlineFrom params source).table = source.table := by
  cases source
  rfl

@[simp]
theorem inlineFrom_joins (source : FromClause Expr) :
    (inlineFrom params source).joins = source.joins.map (inlineJoin params) := by
  cases source with
  | mk table joins => exact inlineJoins_eq joins

end

/-! ## Binding succeeds where every placeholder has a value -/

section Binding

variable (params : List Value)

/-- There is a value for the placeholder. -/
def Part.isFilled : Part → Bool
  | .nested _ => true
  | .placeholder index => index < params.length

/-- Every placeholder has a value. -/
abbrev Filled (parts : List Part) : Prop := Holds (Part.isFilled params) parts

/-- The inlined node where every placeholder has a value, and an error where one has none. -/
structure Binds {Node : Type} (outcome : Except Error Node) (parts : List Part) (inlined : Node) :
    Prop where
  bound : Filled params parts → outcome = .ok inlined
  only : ∀ result, outcome = .ok result → Filled params parts

variable {params} {Node Next : Type} {parts others : List Part}

theorem Binds.pure (node : Node) : Binds params (.ok node) [] node :=
  ⟨fun _ => rfl, fun _ _ => holds_nil _⟩

theorem Binds.bind
    {first : Except Error Node}
    {second : Node → Except Error Next}
    {inlined : Node}
    {whole : Next}
    (before : Binds params first parts inlined)
    (behind : Binds params (second inlined) others whole) :
    Binds params (first >>= second) (parts ++ others) whole where
  bound := by
    intro filled
    obtain ⟨left, right⟩ := (holds_append _ _ _).mp filled
    rw [before.bound left]
    exact behind.bound right
  only := by
    intro result ran
    cases started : first with
    | error error =>
        rw [started] at ran
        cases ran
    | ok node =>
        have filled := before.only node started
        obtain rfl := Except.ok.inj (started.symm.trans (before.bound filled))
        rw [started] at ran
        exact (holds_append _ _ _).mpr ⟨filled, behind.only result ran⟩

theorem Binds.map
    {outcome : Except Error Node}
    {inlined : Node}
    (binds : Binds params outcome parts inlined)
    (make : Node → Next) :
    Binds params (outcome >>= fun node => Pure.pure (make node)) parts (make inlined) := by
  have both :
      Binds params (outcome >>= fun node => Pure.pure (make node)) (parts ++ [])
        (make inlined) :=
    binds.bind (Binds.pure (make inlined))
  rwa [List.append_nil] at both

theorem Binds.nested
    {outcome : Except Error Node}
    {inlined : Node}
    (binds : Binds params outcome parts inlined)
    (subquery : Statement) :
    Binds params outcome (.nested subquery :: parts) inlined where
  bound := fun filled => binds.bound ((holds_cons _ _ _).mp filled).2
  only := fun result ran => (holds_cons _ _ _).mpr ⟨rfl, binds.only result ran⟩

theorem binds_placeholder (index : Nat) :
    Binds params (bindPlaceholder params index) [.placeholder index]
      (inlinePlaceholder params index) := by
  unfold bindPlaceholder inlinePlaceholder
  by_cases below : index < params.length
  · have filled : Filled params [.placeholder index] := by simp [Part.isFilled, below]
    rw [List.getElem?_eq_getElem below]
    exact ⟨fun _ => rfl, fun _ _ => filled⟩
  · have missing : ¬ Filled params [.placeholder index] := by simp [Part.isFilled, below]
    rw [List.getElem?_eq_none (Nat.not_lt.mp below)]
    exact ⟨fun filled => absurd filled missing, by rintro _ ⟨⟩⟩

mutual

theorem binds_expr : (expr : Expr) → NestSelects expr.parts →
    Binds params (bindExpr params expr) expr.parts (inlineExpr params expr)
  | .placeholder index, _ => binds_placeholder index
  | .null, _ | .integer _, _ | .real _, _ | .str _, _ | .bool _, _ | .column _, _
  | .aggregate _, _ => Binds.pure _
  | .unary op expr, nest => (binds_expr expr nest).map (Expr.unary op)
  | .binary op left right, nest => by
      obtain ⟨nestLeft, nestRight⟩ := (holds_append _ _ _).mp nest
      exact (binds_expr left nestLeft).bind ((binds_expr right nestRight).map _)
  | .isNull expr negated, nest => (binds_expr expr nest).map (Expr.isNull · negated)
  | .inSubquery expr subquery negated, nest => by
      obtain ⟨nestExpr, nestSubquery⟩ := (holds_append _ _ _).mp nest
      exact (binds_expr expr nestExpr).bind ((binds_nested subquery nestSubquery).map _)
  | .correlatedInSubquery expr subquery negated, nest => by
      obtain ⟨nestExpr, nestSubquery⟩ := (holds_append _ _ _).mp nest
      exact (binds_expr expr nestExpr).bind ((binds_nested subquery nestSubquery).map _)
  | .exists_ subquery, nest => (binds_nested subquery nest).map Expr.exists_
  | .correlatedExists subquery, nest => (binds_nested subquery nest).map Expr.correlatedExists
  | .scalarSubquery subquery, nest => (binds_nested subquery nest).map Expr.scalarSubquery
  | .correlatedScalarSubquery subquery, nest =>
      (binds_nested subquery nest).map Expr.correlatedScalarSubquery
  | .inList expr values hasNull negated, nest => by
      obtain ⟨nestExpr, nestValues⟩ := (holds_append _ _ _).mp nest
      exact (binds_expr expr nestExpr).bind ((binds_exprs values nestValues).map _)

theorem binds_exprs : (exprs : List Expr) → NestSelects (partsOfExprs exprs) →
    Binds params (bindExprs params exprs) (partsOfExprs exprs) (inlineExprs params exprs)
  | [], _ => Binds.pure []
  | expr :: rest, nest => by
      obtain ⟨nestExpr, nestRest⟩ := (holds_append _ _ _).mp nest
      exact (binds_expr expr nestExpr).bind ((binds_exprs rest nestRest).map _)

theorem binds_option : (expr : Option Expr) → NestSelects (partsOfOption expr) →
    Binds params (bindOption params expr) (partsOfOption expr) (inlineOption params expr)
  | none, _ => Binds.pure none
  | some expr, nest => (binds_expr expr nest).map some

theorem binds_join : (join : Join Expr) → NestSelects (Join.parts join) →
    Binds params (bindJoin params join) (Join.parts join) (inlineJoin params join)
  | ⟨kind, table, on⟩, nest => (binds_option on nest).map (Join.mk kind table)

theorem binds_joins : (joins : List (Join Expr)) → NestSelects (partsOfJoins joins) →
    Binds params (bindJoins params joins) (partsOfJoins joins) (inlineJoins params joins)
  | [], _ => Binds.pure []
  | join :: rest, nest => by
      obtain ⟨nestJoin, nestRest⟩ := (holds_append _ _ _).mp nest
      exact (binds_join join nestJoin).bind ((binds_joins rest nestRest).map _)

theorem binds_from : (source : FromClause Expr) → NestSelects (FromClause.parts source) →
    Binds params (bindFrom params source) (FromClause.parts source) (inlineFrom params source)
  | ⟨table, joins⟩, nest => (binds_joins joins nest).map (FromClause.mk table)

theorem binds_item : (item : SelectItem) → NestSelects item.parts →
    Binds params (bindItem params item) item.parts (inlineItem params item)
  | .column _, _ | .aggregate _, _ => Binds.pure _
  | .expr expr, nest => (binds_expr expr nest).map SelectItem.expr

theorem binds_items : (items : List SelectItem) → NestSelects (partsOfItems items) →
    Binds params (bindItems params items) (partsOfItems items) (inlineItems params items)
  | [], _ => Binds.pure []
  | item :: rest, nest => by
      obtain ⟨nestItem, nestRest⟩ := (holds_append _ _ _).mp nest
      exact (binds_item item nestItem).bind ((binds_items rest nestRest).map _)

theorem binds_projection : (projection : Projection) → NestSelects projection.parts →
    Binds params (bindProjection params projection) projection.parts
      (inlineProjection params projection)
  | .all, _ => Binds.pure Projection.all
  | .items items, nest => (binds_items items nest).map Projection.items

/-- What is no `SELECT` would be left as it is. -/
theorem binds_nested : (subquery : Statement) → NestSelects (.nested subquery :: subquery.parts) →
    Binds params (bindStatement params subquery) (.nested subquery :: subquery.parts)
      (inlineStatement params subquery)
  | .select source projection filter groupBy having orderBy limit offset, nest => by
      have inside := ((holds_cons _ _ _).mp nest).2
      simp only [Statement.parts, holds_append] at inside
      obtain ⟨⟨⟨nestSource, nestProjection⟩, nestFilter⟩, nestHaving⟩ := inside
      refine Binds.nested ?_ _
      rw [Statement.parts, List.append_assoc, List.append_assoc]
      exact (binds_from source nestSource).bind ((binds_projection projection nestProjection).bind
        ((binds_option filter nestFilter).bind ((binds_option having nestHaving).map _)))
  | .createTable .., nest | .dropTable _, nest | .createIndex .., nest | .dropIndex _, nest
  | .insert .., nest | .update .., nest | .delete .., nest | .vacuum, nest | .analyze _, nest
  | .explain .., nest | .begin, nest | .commit, nest | .rollback, nest =>
      nomatch ((holds_cons _ _ _).mp nest).1

end

end Binding

/-! ## What is left of the placeholders -/

section Parts

variable (params : List Value)

/-- What inlining leaves of a part. -/
def Part.inlined : Part → List Part
  | .nested subquery => [.nested (inlineStatement params subquery)]
  | .placeholder index => if index < params.length then [] else [.placeholder index]

variable {params}

theorem parts_valueToExpr (value : Value) : (valueToExpr value).parts = [] := by
  cases value <;> rfl

theorem parts_inlinePlaceholder (index : Nat) :
    (inlinePlaceholder params index).parts = Part.inlined params (.placeholder index) := by
  rw [inlinePlaceholder, Part.inlined]
  by_cases below : index < params.length
  · rw [List.getElem?_eq_getElem below, if_pos below]
    exact parts_valueToExpr _
  · rw [List.getElem?_eq_none (Nat.not_lt.mp below), if_neg below]
    rfl

theorem parts_inlineNested
    {subquery : Statement}
    (inside :
      (inlineStatement params subquery).parts =
        subquery.parts.flatMap (Part.inlined params)) :
    Part.nested (inlineStatement params subquery) :: (inlineStatement params subquery).parts =
      (Part.nested subquery :: subquery.parts).flatMap (Part.inlined params) := by
  rw [List.flatMap_cons, inside]
  rfl

mutual

theorem parts_inlineExpr : (expr : Expr) →
    (inlineExpr params expr).parts = expr.parts.flatMap (Part.inlined params)
  | .placeholder index => by
      rw [inlineExpr, parts_inlinePlaceholder, Expr.parts, List.flatMap_singleton]
  | .null | .integer _ | .real _ | .str _ | .bool _ | .column _ | .aggregate _ => rfl
  | .unary _ expr | .isNull expr _ => parts_inlineExpr expr
  | .binary _ left right => by
      rw [inlineExpr, Expr.parts, Expr.parts, List.flatMap_append, parts_inlineExpr left,
        parts_inlineExpr right]
  | .inSubquery expr subquery _ | .correlatedInSubquery expr subquery _ => by
      rw [inlineExpr, Expr.parts, Expr.parts, List.flatMap_append, parts_inlineExpr expr,
        parts_inlineNested (parts_inlineStatement subquery)]
  | .exists_ subquery | .correlatedExists subquery | .scalarSubquery subquery
  | .correlatedScalarSubquery subquery => by
      rw [inlineExpr, Expr.parts, Expr.parts, parts_inlineNested (parts_inlineStatement subquery)]
  | .inList expr values _ _ => by
      rw [inlineExpr, Expr.parts, Expr.parts, List.flatMap_append, parts_inlineExpr expr,
        parts_inlineExprs values]

theorem parts_inlineExprs : (exprs : List Expr) →
    partsOfExprs (inlineExprs params exprs) =
      (partsOfExprs exprs).flatMap (Part.inlined params)
  | [] => rfl
  | expr :: rest => by
      rw [inlineExprs, partsOfExprs, partsOfExprs, List.flatMap_append, parts_inlineExpr expr,
        parts_inlineExprs rest]

theorem parts_inlineOption : (expr : Option Expr) →
    partsOfOption (inlineOption params expr) =
      (partsOfOption expr).flatMap (Part.inlined params)
  | none => rfl
  | some expr => parts_inlineExpr expr

theorem parts_inlineRows : (rows : List (List Expr)) →
    partsOfRows (inlineRows params rows) = (partsOfRows rows).flatMap (Part.inlined params)
  | [] => rfl
  | row :: rest => by
      rw [inlineRows, partsOfRows, partsOfRows, List.flatMap_append, parts_inlineExprs row,
        parts_inlineRows rest]

theorem parts_inlineJoin : (join : Join Expr) →
    Join.parts (inlineJoin params join) = (Join.parts join).flatMap (Part.inlined params)
  | ⟨_, _, on⟩ => parts_inlineOption on

theorem parts_inlineJoins : (joins : List (Join Expr)) →
    partsOfJoins (inlineJoins params joins) =
      (partsOfJoins joins).flatMap (Part.inlined params)
  | [] => rfl
  | join :: rest => by
      rw [inlineJoins, partsOfJoins, partsOfJoins, List.flatMap_append, parts_inlineJoin join,
        parts_inlineJoins rest]

theorem parts_inlineFrom : (source : FromClause Expr) →
    FromClause.parts (inlineFrom params source) =
      (FromClause.parts source).flatMap (Part.inlined params)
  | ⟨_, joins⟩ => parts_inlineJoins joins

theorem parts_inlineItem : (item : SelectItem) →
    (inlineItem params item).parts = item.parts.flatMap (Part.inlined params)
  | .column _ | .aggregate _ => rfl
  | .expr expr => parts_inlineExpr expr

theorem parts_inlineItems : (items : List SelectItem) →
    partsOfItems (inlineItems params items) =
      (partsOfItems items).flatMap (Part.inlined params)
  | [] => rfl
  | item :: rest => by
      rw [inlineItems, partsOfItems, partsOfItems, List.flatMap_append, parts_inlineItem item,
        parts_inlineItems rest]

theorem parts_inlineProjection : (projection : Projection) →
    (inlineProjection params projection).parts =
      projection.parts.flatMap (Part.inlined params)
  | .all => rfl
  | .items items => parts_inlineItems items

theorem parts_inlineAssignments : (assignments : List (String × Expr)) →
    partsOfAssignments (inlineAssignments params assignments) =
      (partsOfAssignments assignments).flatMap (Part.inlined params)
  | [] => rfl
  | (column, expr) :: rest => by
      rw [inlineAssignments, inlineAssignment, partsOfAssignments, partsOfAssignments,
        partsOfAssignment, partsOfAssignment, List.flatMap_append, parts_inlineExpr expr,
        parts_inlineAssignments rest]

theorem parts_inlineStatement : (statement : Statement) →
    (inlineStatement params statement).parts =
      statement.parts.flatMap (Part.inlined params)
  | .insert _ _ rows => parts_inlineRows rows
  | .select source projection filter _ having _ _ _ => by
      rw [inlineStatement, Statement.parts, Statement.parts, List.flatMap_append,
        List.flatMap_append, List.flatMap_append, parts_inlineFrom source,
        parts_inlineProjection projection, parts_inlineOption filter, parts_inlineOption having]
  | .update _ assignments filter => by
      rw [inlineStatement, Statement.parts, Statement.parts, List.flatMap_append,
        parts_inlineAssignments assignments, parts_inlineOption filter]
  | .delete _ filter => parts_inlineOption filter
  | .explain inner _ => parts_inlineStatement inner
  | .createTable .. | .dropTable _ | .createIndex .. | .dropIndex _ | .vacuum | .analyze _
  | .begin | .commit | .rollback => rfl

end

end Parts

/-! ## Plans -/

namespace Plan

/-- What lies in the expressions of a plan. -/
def parts : Plan → List Part
  | .insert _ _ rows => partsOfRows rows
  | .select query =>
      FromClause.parts query.source ++ query.projection.parts ++ partsOfOption query.filter ++
        partsOfOption query.having
  | .update _ assignments filter _ => partsOfAssignments assignments ++ partsOfOption filter
  | .delete _ filter _ => partsOfOption filter
  | .explain inner _ => inner.parts
  | .createTable .. | .dropTable _ | .createIndex .. | .dropIndex _ | .vacuum | .analyze _ => []

/-- The values in the place of the placeholders; the access path stays. -/
def inlined (params : List Value) : Plan → Plan
  | .insert table columns rows => .insert table columns (inlineRows params rows)
  | .select query => .select { query with
      source := inlineFrom params query.source
      projection := inlineProjection params query.projection
      filter := inlineOption params query.filter
      having := inlineOption params query.having }
  | .update table assignments filter access =>
      .update table (inlineAssignments params assignments) (inlineOption params filter) access
  | .delete table filter access => .delete table (inlineOption params filter) access
  | .explain inner observed => .explain (inner.inlined params) observed
  | .createTable name table => .createTable name table
  | .dropTable name => .dropTable name
  | .createIndex name table columns => .createIndex name table columns
  | .dropIndex name => .dropIndex name
  | .vacuum => .vacuum
  | .analyze table => .analyze table

end Plan

variable {params : List Value}

theorem parts_inlined (planned : Plan) :
    (planned.inlined params).parts = planned.parts.flatMap (Part.inlined params) := by
  induction planned with
  | insert table columns rows => exact parts_inlineRows rows
  | select query =>
      simp only [Plan.inlined, Plan.parts, List.flatMap_append, parts_inlineFrom,
        parts_inlineProjection, parts_inlineOption]
  | update table assignments filter access =>
      simp only [Plan.inlined, Plan.parts, List.flatMap_append, parts_inlineAssignments,
        parts_inlineOption]
  | delete table filter access => exact parts_inlineOption filter
  | explain inner analyze inductionHypothesis => exact inductionHypothesis
  | _ => rfl

theorem placeholder_not_mem
    {planned : Plan}
    (filled : Filled params planned.parts)
    (index : Nat) :
    Part.placeholder index ∉ (planned.inlined params).parts := by
  rw [parts_inlined]
  intro listed
  obtain ⟨part, member, left⟩ := List.mem_flatMap.mp listed
  cases part with
  | nested subquery => cases List.mem_singleton.mp left
  | placeholder other =>
      have below : other < params.length := of_decide_eq_true (filled _ member)
      rw [Part.inlined, if_pos below] at left
      cases left

/-- Every placeholder has a value. -/
theorem filled_iff (parts : List Part) :
    Filled params parts ↔ ∀ index, Part.placeholder index ∈ parts → index < params.length := by
  constructor
  · intro filled index listed
    exact of_decide_eq_true (filled _ listed)
  · intro below part listed
    cases part with
    | nested subquery => rfl
    | placeholder index => exact decide_eq_true (below index listed)

theorem binds_rows
    (rows : List (List Expr))
    (nest : NestSelects (partsOfRows rows)) :
    Binds params (rows.mapM (bindExprs params)) (partsOfRows rows) (inlineRows params rows) := by
  induction rows with
  | nil => exact Binds.pure []
  | cons row rest inductionHypothesis =>
      obtain ⟨nestRow, nestRest⟩ := (holds_append _ _ _).mp nest
      rw [List.mapM_cons]
      exact (binds_exprs row nestRow).bind ((inductionHypothesis nestRest).map _)

theorem binds_assignments
    (assignments : List (String × Expr))
    (nest : NestSelects (partsOfAssignments assignments)) :
    Binds params (assignments.mapM (bindAssignment params)) (partsOfAssignments assignments)
      (inlineAssignments params assignments) := by
  induction assignments with
  | nil => exact Binds.pure []
  | cons assignment rest inductionHypothesis =>
      obtain ⟨column, expr⟩ := assignment
      obtain ⟨nestExpr, nestRest⟩ := (holds_append _ _ _).mp nest
      rw [List.mapM_cons]
      exact ((binds_expr expr nestExpr).map _).bind ((inductionHypothesis nestRest).map _)

theorem binds_plan
    (planned : Plan)
    (nest : NestSelects planned.parts) :
    Binds params (bindPlan params planned) planned.parts (planned.inlined params) := by
  induction planned with
  | insert table columns rows => exact (binds_rows rows nest).map _
  | select query =>
      simp only [Plan.parts, holds_append] at nest
      obtain ⟨⟨⟨nestSource, nestProjection⟩, nestFilter⟩, nestHaving⟩ := nest
      rw [Plan.parts, List.append_assoc, List.append_assoc]
      exact (binds_from _ nestSource).bind ((binds_projection _ nestProjection).bind
        ((binds_option _ nestFilter).bind ((binds_option _ nestHaving).map _)))
  | update table assignments filter access =>
      obtain ⟨nestAssignments, nestFilter⟩ := (holds_append _ _ _).mp nest
      exact (binds_assignments assignments nestAssignments).bind
        ((binds_option filter nestFilter).map _)
  | delete table filter access => exact (binds_option filter nest).map _
  | explain inner analyze inductionHypothesis => exact (inductionHypothesis nest).map _
  | _ => exact Binds.pure _

end PrehniteDB.Sql.Planner
