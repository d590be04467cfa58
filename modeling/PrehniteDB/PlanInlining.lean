import PrehniteDB.IndexAccess
import PrehniteDB.ParameterBinding

namespace PrehniteDB.Sql.Planner

open AccessPaths (AccessPath OrderKey)
open ReadPaths (JoinKind)
open SchemaCodec (Catalog Schema)

/-!
# Planning an inlined statement

The planner takes a placeholder for a literal: subqueries become joins and
chains are put in another order all the same.  Only the choice of an index looks
at the values.
-/

variable {params : List Value}

/-! ## `AND` chains -/

theorem inlinePlaceholder_cases (index : Nat) :
    inlinePlaceholder params index = .placeholder index ∨
      ∃ value, inlinePlaceholder params index = valueToExpr value := by
  unfold inlinePlaceholder
  cases params[index]? with
  | none => exact .inl rfl
  | some value => exact .inr ⟨value, rfl⟩

theorem flattenAnd_placeholder (index : Nat) :
    flattenAnd (inlinePlaceholder params index) = [inlinePlaceholder params index] := by
  rcases @inlinePlaceholder_cases params index with same | ⟨value, same⟩
  · rw [same]
    rfl
  · rw [same]
    cases value <;> rfl

theorem flattenAnd_inlineExpr (expr : Expr) :
    flattenAnd (inlineExpr params expr) = (flattenAnd expr).map (inlineExpr params) := by
  induction expr using flattenAnd.induct with
  | case1 left right leftHypothesis rightHypothesis =>
      rw [inlineExpr, flattenAnd, flattenAnd, List.map_append, leftHypothesis, rightHypothesis]
  | case2 expr other =>
      rw [flattenAnd.eq_2 expr other]
      cases expr with
      | placeholder index =>
          rw [inlineExpr, flattenAnd_placeholder, List.map_singleton, inlineExpr]
      | binary op left right =>
          rw [inlineExpr, flattenAnd.eq_2 _ fun _ _ same => ?_, List.map_singleton, inlineExpr]
          cases same
          exact other left right rfl
      | _ => rfl

theorem andAll_inlineExpr (first : Expr) (rest : List Expr) :
    andAll (inlineExpr params first) (rest.map (inlineExpr params)) =
      inlineExpr params (andAll first rest) := by
  unfold andAll
  induction rest generalizing first with
  | nil => rfl
  | cons next rest inductionHypothesis =>
      rw [List.map_cons, List.foldl_cons, List.foldl_cons, ← inductionHypothesis, inlineExpr]

theorem andChainOpt_inlineExpr (conjuncts : List Expr) :
    andChainOpt (conjuncts.map (inlineExpr params)) =
      inlineOption params (andChainOpt conjuncts) := by
  cases conjuncts with
  | nil => rfl
  | cons first rest =>
      rw [List.map_cons, andChainOpt, andChainOpt, andAll_inlineExpr, inlineOption]

/-! ## Subqueries as joins -/

theorem existsOperand_inlineExpr (expr : Expr) :
    existsOperand (inlineExpr params expr) =
      (existsOperand expr).map fun operand => (operand.1, inlineStatement params operand.2) := by
  have literal (index : Nat) :
      existsOperand (inlinePlaceholder params index) = none ∧
        existsOperand (.unary .not (inlinePlaceholder params index)) = none := by
    rcases @inlinePlaceholder_cases params index with same | ⟨value, same⟩
    · rw [same]
      exact ⟨rfl, rfl⟩
    · rw [same]
      cases value <;> exact ⟨rfl, rfl⟩
  cases expr with
  | placeholder index => exact (literal index).1
  | unary op inner =>
      cases op with
      | neg => rfl
      | not =>
          cases inner with
          | placeholder index => exact (literal index).2
          | _ => rfl
  | _ => rfl

def SimpleQuery.inlined (params : List Value) (query : SimpleQuery) : SimpleQuery where
  table := query.table
  projection := inlineProjection params query.projection
  filter := inlineExpr params query.filter

theorem simpleQuery_inlineStatement (statement : Statement) :
    simpleQuery (inlineStatement params statement) =
      (simpleQuery statement).map (SimpleQuery.inlined params) := by
  cases statement with
  | select source projection filter groupBy having orderBy limit offset =>
      obtain ⟨table, joins⟩ := source
      cases joins <;> cases filter <;> cases groupBy <;> cases having <;> cases orderBy <;>
        cases limit <;> cases offset <;> rfl
  | _ => rfl

theorem singleColumn_inlineProjection (projection : Projection) :
    singleColumn (inlineProjection params projection) = singleColumn projection := by
  cases projection with
  | all => rfl
  | items items =>
      cases items with
      | nil => rfl
      | cons item rest => cases item <;> cases rest <;> rfl

theorem outerUsesQualifier_inlineFrom (source : FromClause Expr) (qualifier : String) :
    outerUsesQualifier (inlineFrom params source) qualifier =
      outerUsesQualifier source qualifier := by
  unfold outerUsesQualifier
  rw [inlineFrom_table, inlineFrom_joins, List.any_map]
  congr 2
  funext join
  rw [Function.comp_apply, inlineJoin_table]

variable (catalog : Catalog)

theorem tryExtractExistsJoin_inlineExpr (expr : Expr) (source : FromClause Expr) :
    tryExtractExistsJoin catalog (inlineExpr params expr) (inlineFrom params source) =
      Option.map (inlineJoin params) <$> tryExtractExistsJoin catalog expr source := by
  unfold tryExtractExistsJoin
  rw [existsOperand_inlineExpr]
  cases existsOperand expr with
  | none => rfl
  | some operand =>
      obtain ⟨negated, subquery⟩ := operand
      dsimp only [Option.map_some]
      rw [simpleQuery_inlineStatement]
      cases simpleQuery subquery with
      | none => rfl
      | some query =>
          dsimp only [Option.map_some, SimpleQuery.inlined]
          cases getSchema catalog query.table.name with
          | error stop => rfl
          | ok schema =>
              cases schema with
              | none => rfl
              | some schema =>
                  simp only [outerUsesQualifier_inlineFrom]
                  cases outerUsesQualifier source query.table.qualifier <;> rfl

theorem tryExtractInJoin_inlineExpr (expr : Expr) (source : FromClause Expr) :
    tryExtractInJoin catalog (inlineExpr params expr) (inlineFrom params source) =
      Option.map (inlineJoin params) <$> tryExtractInJoin catalog expr source := by
  unfold tryExtractInJoin
  cases expr with
  | inSubquery outer subquery negated =>
      rw [inlineExpr]
      dsimp only
      rw [simpleQuery_inlineStatement]
      cases simpleQuery subquery with
      | none => rfl
      | some query =>
          dsimp only [Option.map_some, SimpleQuery.inlined]
          rw [singleColumn_inlineProjection]
          cases singleColumn query.projection with
          | none => rfl
          | some inner =>
              dsimp only
              cases getSchema catalog query.table.name with
              | error stop => rfl
              | ok schema =>
                  cases schema with
                  | none => rfl
                  | some schema =>
                      simp only [outerUsesQualifier_inlineFrom, inlineFrom_table]
                      dsimp only [bind, Except.bind]
                      cases negationSafe negated schema inner with
                      | false => rfl
                      | true =>
                          cases outerUsesQualifier source query.table.qualifier with
                          | true => rfl
                          | false =>
                              cases outer with
                              | placeholder index =>
                                  rw [inlineExpr]
                                  rcases @inlinePlaceholder_cases params index with
                                    same | ⟨value, same⟩ <;> rw [same]
                                  · rfl
                                  · cases value <;> rfl
                              | _ => rfl
  | placeholder index =>
      rw [inlineExpr]
      rcases @inlinePlaceholder_cases params index with same | ⟨value, same⟩ <;> rw [same]
      · rfl
      · cases value <;> rfl
  | _ => rfl

theorem inlineFrom_append (source : FromClause Expr) (join : Join Expr) :
    { inlineFrom params source with
      joins := (inlineFrom params source).joins ++ [inlineJoin params join] } =
      inlineFrom params { source with joins := source.joins ++ [join] } := by
  cases source
  simp [inlineFrom]

theorem rewriteConjuncts_inlineExpr
    (conjuncts : List Expr)
    (source : FromClause Expr)
    (leftover : List Expr) :
    rewriteConjuncts catalog (conjuncts.map (inlineExpr params)) (inlineFrom params source)
        (leftover.map (inlineExpr params)) =
      (fun rewritten =>
          (inlineFrom params rewritten.1, rewritten.2.map (inlineExpr params))) <$>
        rewriteConjuncts catalog conjuncts source leftover := by
  induction conjuncts generalizing source leftover with
  | nil => rfl
  | cons conjunct rest inductionHypothesis =>
      rw [List.map_cons, rewriteConjuncts, rewriteConjuncts, tryExtractExistsJoin_inlineExpr,
        tryExtractInJoin_inlineExpr]
      -- The conjunct has become this join.
      have joined (join : Join Expr) := inductionHypothesis
        { source with joins := source.joins ++ [join] } leftover
      simp only [← inlineFrom_append] at joined
      cases tryExtractExistsJoin catalog conjunct source with
      | error stop => rfl
      | ok found =>
          cases found with
          | some join => exact joined join
          | none =>
              cases tryExtractInJoin catalog conjunct source with
              | error stop => rfl
              | ok found =>
                  cases found with
                  | some join => exact joined join
                  | none =>
                      have stays := inductionHypothesis source (leftover ++ [conjunct])
                      rw [List.map_append, List.map_singleton] at stays
                      exact stays

theorem rewriteSubqueryJoins_inline (source : FromClause Expr) (filter : Option Expr) :
    rewriteSubqueryJoins catalog (inlineFrom params source) (inlineOption params filter) =
      (fun rewritten =>
          (inlineFrom params rewritten.1, inlineOption params rewritten.2)) <$>
        rewriteSubqueryJoins catalog source filter := by
  cases filter with
  | none => rfl
  | some predicate =>
      have rewritten := @rewriteConjuncts_inlineExpr params catalog (flattenAnd predicate) source []
      rw [inlineOption, rewriteSubqueryJoins, rewriteSubqueryJoins]
      dsimp only
      rw [flattenAnd_inlineExpr]
      rw [List.map_nil] at rewritten
      rw [rewritten]
      cases rewriteConjuncts catalog (flattenAnd predicate) source [] with
      | error stop => rfl
      | ok result =>
          refine congrArg Except.ok (Prod.ext rfl ?_)
          exact andChainOpt_inlineExpr result.2

/-! ## The order of inner joins -/

theorem collectPredicateRefs_inlineExpr (chain : Chain) : (expr : Expr) →
    collectPredicateRefs chain (inlineExpr params expr) = collectPredicateRefs chain expr
  | .placeholder index => by
      rw [inlineExpr]
      rcases @inlinePlaceholder_cases params index with same | ⟨value, same⟩ <;> rw [same]
      cases value <;> rfl
  | .unary _ expr | .isNull expr _ | .inSubquery expr _ _ | .correlatedInSubquery expr _ _
  | .inList expr _ _ _ => collectPredicateRefs_inlineExpr chain expr
  | .binary _ left right => by
      rw [inlineExpr, collectPredicateRefs, collectPredicateRefs,
        collectPredicateRefs_inlineExpr chain left, collectPredicateRefs_inlineExpr chain right]
  | .null | .integer _ | .real _ | .str _ | .bool _ | .column _ | .aggregate _ | .exists_ _
  | .correlatedExists _ | .scalarSubquery _ | .correlatedScalarSubquery _ => rfl

/-- What comes of each item, put through a function afterwards. -/
theorem mapM_map_some
    {Item Before After : Type}
    (make : Before → After)
    {work : Item → Option Before}
    {changed : Item → Option After}
    (items : List Item)
    (each : ∀ item, changed item = (work item).map make) :
    items.mapM changed = (items.mapM work).map (List.map make) := by
  induction items with
  | nil => rfl
  | cons item rest inductionHypothesis =>
      rw [List.mapM_cons, List.mapM_cons, each, inductionHypothesis]
      cases work item with
      | none => rfl
      | some result => cases rest.mapM work <;> rfl

theorem stepPredicate_inlineExpr (predicates : List Expr) (here : List Nat) :
    stepPredicate (predicates.map (inlineExpr params)) here =
      inlineExpr params (stepPredicate predicates here) := by
  have found :
      (here.filterMap fun position => (predicates.map (inlineExpr params))[position]?) =
        (here.filterMap fun position => predicates[position]?).map (inlineExpr params) := by
    rw [List.map_filterMap]
    congr
    funext position
    exact List.getElem?_map
  unfold stepPredicate
  rw [found]
  cases here.filterMap fun position => predicates[position]? with
  | nil => rfl
  | cons first rest => exact andAll_inlineExpr first rest

theorem stepJoin_inlineExpr (chain : Chain) (predicates : List Expr) (step : Nat × List Nat) :
    stepJoin chain (predicates.map (inlineExpr params)) step =
      (stepJoin chain predicates step).map (inlineJoin params) := by
  unfold stepJoin
  rw [stepPredicate_inlineExpr]
  cases chain.tables[step.1]? <;> rfl

theorem reorderedFrom_inlineExpr
    (chain : Chain)
    (predicates : List Expr)
    (predRefs : List UInt32)
    (order : List Nat) :
    reorderedFrom chain (predicates.map (inlineExpr params)) predRefs order =
      (reorderedFrom chain predicates predRefs order).map (inlineFrom params) := by
  cases order with
  | nil => rfl
  | cons first rest =>
      rw [reorderedFrom, reorderedFrom]
      dsimp only
      rw [mapM_map_some (inlineJoin params) _ (stepJoin_inlineExpr chain predicates)]
      cases chain.tables[first]? with
      | none => rfl
      | some table =>
          cases joined : (rest.zip (assignPredicates predRefs rest (tableBit first) [])).mapM
              (stepJoin chain predicates) with
          | none => rfl
          | some joins =>
              refine congrArg some ?_
              rw [inlineFrom, inlineJoins_eq]

theorem reorderChain_inlineFrom
    (source : FromClause Expr)
    (chain : Chain)
    (predicates : List Expr) :
    reorderChain (inlineFrom params source) chain (predicates.map (inlineExpr params)) =
      inlineFrom params (reorderChain source chain predicates) := by
  have refs :
      (predicates.map (inlineExpr params)).mapM (collectPredicateRefs chain) =
        predicates.mapM (collectPredicateRefs chain) := by
    rw [List.mapM_map]
    have same :
        collectPredicateRefs chain ∘ inlineExpr params = collectPredicateRefs chain :=
      funext (collectPredicateRefs_inlineExpr chain)
    exact congrArg (List.mapM · predicates) same
  unfold reorderChain
  rw [refs]
  cases predicates.mapM (collectPredicateRefs chain) with
  | none => rfl
  | some predRefs =>
      dsimp only
      rw [reorderedFrom_inlineExpr]
      split
      case isTrue => rfl
      case isFalse =>
        cases reorderedFrom chain predicates predRefs _ <;> rfl

theorem reorderInnerChain_inlineFrom (source : FromClause Expr) :
    reorderInnerChain catalog (inlineFrom params source) =
      inlineFrom params <$> reorderInnerChain catalog source := by
  have kinds :
      (source.joins.map (inlineJoin params)).any (fun join => join.kind ≠ .inner) =
        source.joins.any (fun join => join.kind ≠ .inner) := by
    rw [List.any_map]
    congr
    funext join
    rw [Function.comp_apply, inlineJoin_kind]
  have tables :
      (source.joins.map (inlineJoin params)).map Join.table = source.joins.map Join.table := by
    rw [List.map_map]
    exact List.map_congr_left fun join _ => inlineJoin_table join
  have predicates :
      (source.joins.map (inlineJoin params)).mapM Join.on =
        (source.joins.mapM Join.on).map (List.map (inlineExpr params)) := by
    rw [List.mapM_map]
    exact mapM_map_some (inlineExpr params) source.joins inlineJoin_on
  unfold reorderInnerChain
  rw [inlineFrom_joins, inlineFrom_table, kinds, tables, predicates, List.isEmpty_map,
    List.length_map]
  split
  case isTrue => rfl
  case isFalse =>
    cases gatherTables catalog (source.table :: source.joins.map Join.table)
        { tables := [], rowCounts := [], columns := [] } with
    | error stop => rfl
    | ok gathered =>
        cases gathered with
        | none => rfl
        | some chain =>
            cases source.joins.mapM Join.on with
            | none => rfl
            | some predicates =>
                exact congrArg Except.ok (reorderChain_inlineFrom source chain predicates)

/-! ## The choice of an index -/

/-- A column against a placeholder, where the literal could have chosen an index. -/
def comparesPlaceholder : Expr → Bool
  | .binary (.comparison _) (.column _) (.placeholder _)
  | .binary (.comparison _) (.placeholder _) (.column _) => true
  | _ => false

section Views

/-- The column, if the expression is one. -/
def columnOf : Expr → Option ColumnRef
  | .column ref => some ref
  | _ => none

def literalValue : Expr → Option Value
  | .integer number => some (.int number)
  | .real bits => some (.real bits)
  | .str string => some (.text string)
  | .bool truth => some (.bool truth)
  | _ => none

def evaluableColumn : PrehniteDB.Expr Statement → Option ColumnRef
  | .column ref => some ref
  | _ => none

theorem evaluable_views (expr : Expr) :
    expr.evaluable.bind evaluableColumn = columnOf expr ∧
      expr.evaluable.bind AccessPaths.literalValue = literalValue expr := by
  cases expr with
  | unary op inner => rw [Expr.evaluable]; cases inner.evaluable <;> exact ⟨rfl, rfl⟩
  | isNull inner negated => rw [Expr.evaluable]; cases inner.evaluable <;> exact ⟨rfl, rfl⟩
  | inSubquery inner subquery negated =>
      rw [Expr.evaluable]; cases inner.evaluable <;> exact ⟨rfl, rfl⟩
  | correlatedInSubquery inner subquery negated =>
      rw [Expr.evaluable]; cases inner.evaluable <;> exact ⟨rfl, rfl⟩
  | binary op left right =>
      rw [Expr.evaluable]
      cases left.evaluable <;> cases right.evaluable <;> exact ⟨rfl, rfl⟩
  | inList inner values hasNull negated =>
      rw [Expr.evaluable]
      cases inner.evaluable <;> cases values.mapM literalOf <;> exact ⟨rfl, rfl⟩
  | _ => exact ⟨rfl, rfl⟩

/-- What the planner sees of the two sides. -/
def orient (op : ComparisonOp) (left right : Expr) : Option (ColumnRef × Value × ComparisonOp) :=
  match columnOf left with
  | some ref => (literalValue right).map fun literal => (ref, literal, op)
  | none =>
      (columnOf right).bind fun ref =>
        (literalValue left).map fun literal => (ref, literal, AccessPaths.flipOp op)

theorem orient_evaluable (op : ComparisonOp) (left right : PrehniteDB.Expr Statement) :
    AccessPaths.orient op left right =
      match evaluableColumn left with
      | some ref => (AccessPaths.literalValue right).map fun literal => (ref, literal, op)
      | none =>
          (evaluableColumn right).bind fun ref =>
            (AccessPaths.literalValue left).map fun literal =>
              (ref, literal, AccessPaths.flipOp op) := by
  cases left with
  | column ref => rfl
  | _ => cases right <;> rfl

theorem orient_eq (op : ComparisonOp) (left right : Expr) :
    (left.evaluable.bind fun left =>
        right.evaluable.bind fun right => AccessPaths.orient op left right) =
      orient op left right := by
  obtain ⟨leftColumn, leftLiteral⟩ := evaluable_views left
  obtain ⟨rightColumn, rightLiteral⟩ := evaluable_views right
  unfold orient
  rw [← leftColumn, ← leftLiteral, ← rightColumn, ← rightLiteral]
  cases left.evaluable with
  | none => cases right.evaluable <;> simp
  | some left =>
      cases right.evaluable with
      | none => simp; cases evaluableColumn left <;> rfl
      | some right => exact orient_evaluable op left right

theorem classify_comparison (schema : AccessPaths.Schema) :
    ∃ predicateOf : ColumnRef × Value × ComparisonOp → Option AccessPaths.ColumnPredicate,
      ∀ op left right,
        classify schema (.binary (.comparison op) left right) =
          (orient op left right).bind predicateOf := by
  have oriented :
      ∃ predicateOf : ColumnRef × Value × ComparisonOp → Option AccessPaths.ColumnPredicate,
        ∀ op (left right : PrehniteDB.Expr Statement),
          AccessPaths.classify schema (.binary (.comparison op) left right) =
            (AccessPaths.orient op left right).bind predicateOf :=
    ⟨_, fun op left right => rfl⟩
  obtain ⟨predicateOf, oriented⟩ := oriented
  refine ⟨predicateOf, fun op left right => ?_⟩
  rw [← orient_eq, classify, Expr.evaluable]
  cases left.evaluable with
  | none => rfl
  | some left =>
      cases right.evaluable with
      | none => rfl
      | some right => exact oriented op left right

theorem classify_other
    (schema : AccessPaths.Schema)
    (expr : Expr)
    (other : ∀ op left right, expr ≠ .binary (.comparison op) left right) :
    classify schema expr = none := by
  unfold classify
  cases expr with
  | binary op left right =>
      rw [Expr.evaluable]
      cases op with
      | comparison op => exact absurd rfl (other op left right)
      | _ => cases left.evaluable <;> cases right.evaluable <;> rfl
  | unary op inner => rw [Expr.evaluable]; cases inner.evaluable <;> rfl
  | isNull inner negated => rw [Expr.evaluable]; cases inner.evaluable <;> rfl
  | inSubquery inner subquery negated => rw [Expr.evaluable]; cases inner.evaluable <;> rfl
  | correlatedInSubquery inner subquery negated =>
      rw [Expr.evaluable]; cases inner.evaluable <;> rfl
  | inList inner values hasNull negated =>
      rw [Expr.evaluable]
      cases inner.evaluable <;> cases values.mapM literalOf <;> rfl
  | _ => rfl

theorem columnOf_inlineExpr (expr : Expr) :
    columnOf (inlineExpr params expr) = columnOf expr := by
  cases expr with
  | placeholder index =>
      rw [inlineExpr]
      rcases @inlinePlaceholder_cases params index with same | ⟨value, same⟩ <;> rw [same]
      cases value <;> rfl
  | _ => rfl

theorem literalValue_inlineExpr
    (expr : Expr)
    (noPlaceholder : ∀ index, expr ≠ .placeholder index) :
    literalValue (inlineExpr params expr) = literalValue expr := by
  cases expr with
  | placeholder index => exact absurd rfl (noPlaceholder index)
  | _ => rfl

theorem columnOf_some {expr : Expr} {ref : ColumnRef} (named : columnOf expr = some ref) :
    expr = .column ref := by
  cases expr with
  | column other => exact congrArg Expr.column (Option.some.inj named)
  | _ => cases named

theorem orient_inlineExpr
    (op : ComparisonOp)
    (left right : Expr)
    (kept : comparesPlaceholder (.binary (.comparison op) left right) = false) :
    orient op (inlineExpr params left) (inlineExpr params right) = orient op left right := by
  unfold orient
  rw [columnOf_inlineExpr, columnOf_inlineExpr]
  cases named : columnOf left with
  | some ref =>
      obtain rfl := columnOf_some named
      dsimp only
      rw [literalValue_inlineExpr right]
      rintro index rfl
      cases kept
  | none =>
      cases otherNamed : columnOf right with
      | none => rfl
      | some ref =>
          obtain rfl := columnOf_some otherNamed
          dsimp only
          rw [literalValue_inlineExpr left]
          rintro index rfl
          cases kept

end Views

theorem classify_inlineExpr
    (schema : AccessPaths.Schema)
    (expr : Expr)
    (kept : comparesPlaceholder expr = false) :
    classify schema (inlineExpr params expr) = classify schema expr := by
  by_cases compares : ∃ op left right, expr = .binary (.comparison op) left right
  · obtain ⟨op, left, right, rfl⟩ := compares
    obtain ⟨predicateOf, oriented⟩ := classify_comparison schema
    rw [inlineExpr, oriented, oriented, orient_inlineExpr op left right kept]
  · have other (op : ComparisonOp) (left right : Expr) :
        expr ≠ .binary (.comparison op) left right :=
      fun same => compares ⟨op, left, right, same⟩
    rw [classify_other schema expr other, classify_other]
    intro op left right same
    cases expr with
    | binary op left right =>
        rw [inlineExpr] at same
        cases same
        exact other _ _ _ rfl
    | placeholder index =>
        rw [inlineExpr] at same
        rcases @inlinePlaceholder_cases params index with stays | ⟨value, made⟩
        · rw [stays] at same
          cases same
        · rw [made] at same
          cases value <;> cases same
    | _ => cases same

/-- Among the conjuncts of the filter. -/
def filterComparesPlaceholder (filter : Option Expr) : Bool :=
  filter.any fun predicate => (flattenAnd predicate).any comparesPlaceholder

theorem chooseIndex_inlineExpr
    (schema : AccessPaths.Schema)
    (filter : Expr)
    (orderBy : List OrderKey)
    (kept : filterComparesPlaceholder (some filter) = false) :
    chooseIndex schema (inlineExpr params filter) orderBy =
      chooseIndex schema filter orderBy := by
  have predicates :
      ((flattenAnd filter).map (inlineExpr params)).filterMap (classify schema) =
        (flattenAnd filter).filterMap (classify schema) := by
    rw [List.filterMap_map]
    refine List.filterMap_congr fun conjunct listed => ?_
    refine classify_inlineExpr schema conjunct ?_
    exact Bool.eq_false_iff.mpr (List.any_eq_false.mp kept conjunct listed)
  unfold chooseIndex
  rw [flattenAnd_inlineExpr, predicates]

/-- The planner asks for the same table, whatever it finds there. -/
theorem chooseAccess_inline
    {table : String}
    {filter : Option Expr}
    {orderBy : List OrderKey}
    {choice : AccessPath × Bool}
    (chosen : chooseAccess catalog table filter orderBy = .ok choice) :
    ∃ other, chooseAccess catalog table (inlineOption params filter) orderBy = .ok other ∧
      (filterComparesPlaceholder filter = false → other = choice) := by
  cases filter with
  | none => exact ⟨choice, chosen, fun _ => rfl⟩
  | some predicate =>
      unfold chooseAccess at chosen ⊢
      rw [inlineOption]
      dsimp only at chosen ⊢
      cases found : getSchema catalog table with
      | error stop =>
          rw [found] at chosen
          cases chosen
      | ok schema =>
          rw [found] at chosen
          cases schema with
          | none => exact ⟨choice, chosen, fun _ => rfl⟩
          | some schema =>
              refine ⟨_, rfl, fun kept => ?_⟩
              rw [chooseIndex_inlineExpr _ predicate orderBy kept]
              exact Except.ok.inj chosen

/-! ## Whole plans -/

namespace Plan

/-- The access path, and whether it gives the rows in the order asked for. -/
def choice : Plan → AccessPath × Bool
  | .select query => (query.access, query.presorted)
  | .update _ _ _ access | .delete _ _ access => (access, false)
  | .explain inner _ => inner.choice
  | _ => (.fullScan, false)

/-- The plan with another access path. -/
def choosing (choice : AccessPath × Bool) : Plan → Plan
  | .select query => .select { query with access := choice.1, presorted := choice.2 }
  | .update table assignments filter _ => .update table assignments filter choice.1
  | .delete table filter _ => .delete table filter choice.1
  | .explain inner observed => .explain (inner.choosing choice) observed
  | other => other

/-- A filter that may choose an index does so by a placeholder. -/
def comparesPlaceholder : Plan → Bool
  | .select query => query.source.joins.isEmpty && filterComparesPlaceholder query.filter
  | .update _ _ filter _ | .delete _ filter _ => filterComparesPlaceholder filter
  | .explain inner _ => inner.comparesPlaceholder
  | _ => false

end Plan

theorem planSelect_inline
    {source : FromClause Expr}
    {projection : Projection}
    {filter : Option Expr}
    {groupBy : List ColumnRef}
    {having : Option Expr}
    {orderBy : List OrderKey}
    {limit offset : Option UInt64}
    {query : SelectPlan}
    (planned :
      planSelect catalog source projection filter groupBy having orderBy limit offset =
        .ok query) :
    ∃ other,
      planSelect catalog (inlineFrom params source) (inlineProjection params projection)
          (inlineOption params filter) groupBy (inlineOption params having) orderBy limit offset =
        .ok other ∧
      (Plan.select other).choosing (query.access, query.presorted) =
        (Plan.select query).inlined params ∧
      ((Plan.select query).comparesPlaceholder = false →
        .select other = (Plan.select query).inlined params) := by
  unfold planSelect at planned ⊢
  obtain ⟨rewritten, rewrote, planned⟩ := bind_ok planned
  obtain ⟨reordered, reorders, planned⟩ := bind_ok planned
  rw [rewriteSubqueryJoins_inline, rewrote]
  dsimp only [bind, Except.bind, Functor.map, Except.map]
  rw [reorderInnerChain_inlineFrom, reorders]
  dsimp only [Functor.map, Except.map]
  rw [inlineFrom_joins, inlineFrom_table, List.isEmpty_map]
  cases alone : reordered.joins.isEmpty with
  | false =>
      rw [alone] at planned
      cases planned
      exact ⟨_, rfl, rfl, fun _ => rfl⟩
  | true =>
      rw [alone] at planned
      obtain ⟨choice, chosen, made⟩ := bind_ok planned
      cases made
      obtain ⟨other, same, kept⟩ := @chooseAccess_inline params _ _ _ _ _ chosen
      simp only [if_true]
      rw [same]
      refine ⟨_, rfl, rfl, fun plain => ?_⟩
      rw [Plan.comparesPlaceholder, alone, Bool.true_and] at plain
      rw [kept plain]
      rfl

theorem checkInsert_inlineRows (columns : Option (List String)) (rows : List (List Expr)) :
    checkInsert columns (inlineRows params rows) = checkInsert columns rows := by
  have widths (names : List String) (entry : List Expr × Nat) :
      checkWidth names (Prod.map (List.map (inlineExpr params)) id entry) =
        checkWidth names entry := by
    unfold checkWidth
    rw [Prod.map_fst, Prod.map_snd, List.length_map, id_eq]
  unfold checkInsert
  rw [inlineRows_eq, List.zipIdx_map]
  cases columns with
  | none => rfl
  | some names =>
      dsimp only
      rw [List.forM_map]
      simp only [widths]

/-- A planned statement is planned with its values too, up to the access path. -/
theorem plan_inline : (statement : Statement) → ∀ {planned : Plan},
    plan catalog statement = .ok planned →
    ∃ other,
      plan catalog (inlineStatement params statement) = .ok other ∧
      other.choosing planned.choice = planned.inlined params ∧
      (planned.comparesPlaceholder = false → other = planned.inlined params)
  | .select source projection filter groupBy having orderBy limit offset, planned, ok => by
      rw [plan] at ok
      obtain ⟨query, chosen, made⟩ := bind_ok ok
      cases made
      obtain ⟨other, same, choosing, kept⟩ := @planSelect_inline params _ _ _ _ _ _ _ _ _ _ chosen
      refine ⟨.select other, ?_, choosing, kept⟩
      rw [inlineStatement, plan, same]
      rfl
  | .explain inner observed, planned, ok => by
      rw [plan] at ok
      obtain ⟨innerPlan, within, made⟩ := bind_ok ok
      cases made
      obtain ⟨other, same, choosing, kept⟩ := plan_inline inner within
      refine ⟨.explain other observed, ?_, congrArg (Plan.explain · observed) choosing,
        fun plain => congrArg (Plan.explain · observed) (kept plain)⟩
      rw [inlineStatement, plan, same]
      rfl
  | .insert table columns rows, planned, ok => by
      rw [inlineStatement, plan, checkInsert_inlineRows]
      rw [plan] at ok
      obtain ⟨accepted, checked, made⟩ := bind_ok ok
      cases made
      rw [checked]
      exact ⟨_, rfl, rfl, fun _ => rfl⟩
  | .update table assignments filter, planned, ok => by
      rw [plan] at ok
      obtain ⟨choice, chosen, made⟩ := bind_ok ok
      cases made
      obtain ⟨other, same, kept⟩ := @chooseAccess_inline params _ _ _ _ _ chosen
      rw [inlineStatement, plan, same]
      refine ⟨_, rfl, rfl, fun plain => ?_⟩
      rw [kept plain]
      rfl
  | .delete table filter, planned, ok => by
      rw [plan] at ok
      obtain ⟨choice, chosen, made⟩ := bind_ok ok
      cases made
      obtain ⟨other, same, kept⟩ := @chooseAccess_inline params _ _ _ _ _ chosen
      rw [inlineStatement, plan, same]
      refine ⟨_, rfl, rfl, fun plain => ?_⟩
      rw [kept plain]
      rfl
  | .createTable name columns, planned, ok => by
      rw [inlineStatement]
      refine ⟨planned, ok, ?_⟩
      rw [plan] at ok
      obtain ⟨table, lowered, made⟩ := bind_ok ok
      cases made
      exact ⟨rfl, fun _ => rfl⟩
  | .analyze table, planned, ok => by
      rw [inlineStatement]
      refine ⟨planned, ok, ?_⟩
      rw [plan] at ok
      obtain ⟨schema, found, made⟩ := bind_ok ok
      cases schema with
      | none => cases made
      | some schema =>
          cases made
          exact ⟨rfl, fun _ => rfl⟩
  | .dropTable _, planned, ok | .createIndex .., planned, ok | .dropIndex _, planned, ok
  | .vacuum, planned, ok => by
      cases ok
      exact ⟨_, rfl, rfl, fun _ => rfl⟩
  | .begin, _, ok | .commit, _, ok | .rollback, _, ok => nomatch ok

theorem choosing_choice (planned : Plan) : planned.choosing planned.choice = planned := by
  induction planned with
  | explain inner observed inductionHypothesis =>
      exact congrArg (Plan.explain · observed) inductionHypothesis
  | _ => rfl

/-! ## Binding is inlining -/

/-- A bound plan is the plan of the statement with its values, up to the access path. -/
theorem bindPlan_inlines
    (statement : Statement)
    (params : List Value)
    {planned : Plan}
    (ok : plan catalog statement = .ok planned)
    (nest : NestSelects planned.parts) :
    ((∃ bound, bindPlan params planned = .ok bound) ↔
      ∀ index, Part.placeholder index ∈ planned.parts → index < params.length) ∧
    ∀ bound, bindPlan params planned = .ok bound →
      (∀ index, Part.placeholder index ∉ bound.parts) ∧
      ∃ inlined,
        plan catalog (inlineStatement params statement) = .ok inlined ∧
        bound = inlined.choosing planned.choice ∧
        (inlined.choice = planned.choice → bound = inlined) ∧
        (planned.comparesPlaceholder = false → bound = inlined) := by
  have binds := @binds_plan params planned nest
  refine ⟨?_, ?_⟩
  · rw [← filled_iff]
    exact ⟨fun ⟨bound, ran⟩ => binds.only bound ran, fun filled => ⟨_, binds.bound filled⟩⟩
  · intro bound ran
    have filled := binds.only bound ran
    obtain rfl := Except.ok.inj (ran.symm.trans (binds.bound filled))
    obtain ⟨other, same, choosing, kept⟩ := @plan_inline params catalog statement planned ok
    refine ⟨placeholder_not_mem filled, other, same, choosing.symm, fun alike => ?_,
      fun plain => (kept plain).symm⟩
    rw [← choosing, ← alike, choosing_choice]

/-! ## A `LIMIT` without an order -/

/-- The rows of one table that a plan answers with, before they are projected. -/
def SelectPlan.rows
    {schema : AccessPaths.Schema}
    (table : AccessPaths.Table schema)
    (query : SelectPlan) : Option (Except Error (List AccessPaths.Version)) :=
  (query.filter.bind Expr.evaluable).map fun predicate => do
    let answer ← table.answer query.source.table.qualifier predicate query.access
    match query.limit with
    | some limit => pure (answer.take limit.toNat)
    | none => pure answer

def numbers : Schema where
  name := "numbers"
  columns := [{ name := "n", type := .int, notNull := false, foreignKey := none, stats := none }]
  root := 2
  nextRowid := 3
  rowCount := 2
  indexes := [{ name := "by_n", columns := [0], root := 7, unique := false, isBuilding := false }]
  primaryKeyColumn := none
  mutationsSinceAnalyze := 2

def numbersCatalog : Catalog := [("numbers", SchemaCodec.encodeSchema numbers)]

def number (rowid : UInt64) (value : Int64) : AccessPaths.Version :=
  { rowid, values := [.int value], visible := true }

/-- The greater number was inserted first. -/
def twoNumbers : AccessPaths.Table (paths numbers) where
  versions := [number 1 2, number 2 1]
  trees := fun _ =>
    [encodeIndexKey [.int 1] [0] 2, encodeIndexKey [.int 2] [0] 1]
  keyed := by decide
  typed := by
    intro version stored position column found
    match position with
    | 0 =>
        cases found
        rcases List.mem_cons.mp stored with rfl | last
        · rfl
        · rw [List.mem_singleton.mp last]
          rfl
    | _ + 1 => cases found
  indexed := by
    intro index listed _
    obtain rfl := List.mem_singleton.mp listed
    exact List.Perm.swap _ _ _

/-- `SELECT n FROM numbers WHERE n > bound LIMIT 1`. -/
def anyAbove (bound : Expr) : Statement :=
  .select ⟨⟨"numbers", none⟩, []⟩ (.items [.column ⟨none, "n"⟩])
    (some (.binary (.comparison .gt) (.column ⟨none, "n"⟩) bound)) [] none [] (some 1) none

def anyAbovePlan (bound : Expr) (access : AccessPath) : SelectPlan where
  source := ⟨⟨"numbers", none⟩, []⟩
  projection := .items [.column ⟨none, "n"⟩]
  filter := some (.binary (.comparison .gt) (.column ⟨none, "n"⟩) bound)
  access := access
  groupBy := []
  having := none
  orderBy := []
  presorted := false
  limit := some 1
  offset := none

theorem plan_anyAbove {bound : Expr} {access : AccessPath}
    (chosen :
      chooseIndex (paths numbers)
          (.binary (.comparison .gt) (.column ⟨none, "n"⟩) bound) [] =
        (access, false)) :
    plan numbersCatalog (anyAbove bound) = .ok (.select (anyAbovePlan bound access)) := by
  have found : getSchema numbersCatalog "numbers" = .ok (some numbers) :=
    congrArg asked (show numbersCatalog.get "numbers" = .ok (some numbers) by decide +kernel)
  have path :
      chooseAccess numbersCatalog "numbers"
          (some (.binary (.comparison .gt) (.column ⟨none, "n"⟩) bound)) [] =
        .ok (access, false) := by
    rw [chooseAccess, found, ← chosen]
    rfl
  have kept :
      rewriteSubqueryJoins numbersCatalog ⟨⟨"numbers", none⟩, []⟩
          (some (.binary (.comparison .gt) (.column ⟨none, "n"⟩) bound)) =
        .ok (⟨⟨"numbers", none⟩, []⟩,
          some (.binary (.comparison .gt) (.column ⟨none, "n"⟩) bound)) := rfl
  have alone :
      reorderInnerChain numbersCatalog ⟨⟨"numbers", none⟩, []⟩ = .ok ⟨⟨"numbers", none⟩, []⟩ := rfl
  rw [anyAbove, plan, planSelect, kept]
  dsimp only [bind, Except.bind]
  rw [alone]
  dsimp only [List.isEmpty_nil]
  rw [if_pos rfl, path]
  rfl

/-- The planner sees no value, and reads the whole table. -/
theorem plan_anyAbove_placeholder :
    plan numbersCatalog (anyAbove (.placeholder 0)) =
      .ok (.select (anyAbovePlan (.placeholder 0) .fullScan)) :=
  plan_anyAbove (by decide)

/-- `SELECT n FROM numbers WHERE n > (SELECT n FROM numbers WHERE n > ? LIMIT 1) LIMIT 1`. -/
def aboveNested : Statement :=
  anyAbove (.scalarSubquery (anyAbove (.placeholder 0)))

/-- The placeholder is bound inside the nested statement, and the access path is kept. -/
theorem bindPlan_aboveNested :
    ∃ planned bound,
      plan numbersCatalog aboveNested = .ok planned ∧
      Part.nested (anyAbove (.placeholder 0)) ∈ planned.parts ∧
      planned.comparesPlaceholder = false ∧
      bindPlan [.int 1] planned = .ok bound ∧
      plan numbersCatalog (inlineStatement [.int 1] aboveNested) = .ok bound := by
  have planned :
      plan numbersCatalog aboveNested =
        .ok (.select
          (anyAbovePlan (.scalarSubquery (anyAbove (.placeholder 0))) .fullScan)) :=
    plan_anyAbove (by decide)
  have nest :
      NestSelects (Plan.select
        (anyAbovePlan (.scalarSubquery (anyAbove (.placeholder 0))) .fullScan)).parts := by
    simp [Plan.parts, anyAbovePlan, anyAbove, FromClause.parts, Projection.parts,
      SelectItem.parts, partsOfOption, Expr.parts, Statement.parts, Statement.isSelect]
  have inlines := bindPlan_inlines numbersCatalog aboveNested [.int 1] planned nest
  obtain ⟨bound, binds⟩ := inlines.1.mpr fun index member => by
    simp [Plan.parts, anyAbovePlan, anyAbove, FromClause.parts, Projection.parts,
      SelectItem.parts, partsOfOption, Expr.parts, Statement.parts] at member
    simp [member]
  obtain ⟨_, inlined, same, _, _, plain⟩ := inlines.2 bound binds
  refine ⟨_, bound, planned, ?_, rfl, binds, plain rfl ▸ same⟩
  simp [Plan.parts, anyAbovePlan, FromClause.parts, Projection.parts, SelectItem.parts,
    partsOfOption, Expr.parts]

/-- The literal is answered by the index, and so with another row. -/
theorem limit_without_order :
    ∃ planned bound inlined,
      plan numbersCatalog (anyAbove (.placeholder 0)) = .ok planned ∧
      bindPlan [.int 0] planned = .ok (.select bound) ∧
      plan numbersCatalog (inlineStatement [.int 0] (anyAbove (.placeholder 0))) =
        .ok (.select inlined) ∧
      bound.rows twoNumbers = some (.ok [number 1 2]) ∧
      inlined.rows twoNumbers = some (.ok [number 2 1]) := by
  have literal := @plan_anyAbove (.integer 0)
    (.indexScan 7 [2, 0x80, 0, 0, 0, 0, 0, 0, 1] none) (by decide)
  exact ⟨_, anyAbovePlan (.integer 0) .fullScan, _, plan_anyAbove_placeholder, rfl, literal,
    by decide, by decide⟩

end PrehniteDB.Sql.Planner
