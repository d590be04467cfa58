import PrehniteDB.CorrelatedSubqueries

namespace PrehniteDB.Sql.Correlation

open Planner (valueToExpr)
open SchemaCodec (Catalog)

/-!
# The scope of a correlated subquery

Substitution puts the values of the outer row in the place of exactly the outer
references as long as none of the subquery's own is ambiguous, and then the
resolved predicate has the value that it means.
-/

/-! ## Membership -/

section Membership

variable {probe : Value} {values : List Value}

theorem compareOp_bool {candidate verdict : Value}
    (probeSome : probe.isNull = false)
    (candidateSome : candidate.isNull = false)
    (compared : compareOp .eq probe candidate = .ok verdict) :
    ∃ truth, verdict = .bool truth := by
  unfold compareOp at compared
  rw [probeSome, candidateSome] at compared
  cases ordered : probe.compareWith candidate with
  | error error =>
      rw [ordered] at compared
      cases compared
  | ok ordering =>
      rw [ordered] at compared
      exact ⟨_, (Except.ok.inj compared).symm⟩

/-- A `NULL` among the candidates takes the certainty from a `FALSE`. -/
theorem search_null (hasNull : Bool) :
    evalInList.search probe true values =
      evalInList.search probe hasNull values >>= PrehniteDB.logic .or .null := by
  induction values with
  | nil => cases hasNull <;> rfl
  | cons candidate rest inductionHypothesis =>
      rw [evalInList.search, evalInList.search]
      cases compareOp .eq probe candidate with
      | error error => rfl
      | ok verdict =>
          dsimp only [bind, Except.bind]
          split
          case isTrue => rfl
          case isFalse => exact inductionHypothesis

theorem search_truth {hasNull : Bool} {verdict : Value}
    (found : evalInList.search probe hasNull values = .ok verdict) :
    verdict = .null ∨ ∃ truth, verdict = .bool truth := by
  induction values with
  | nil =>
      rw [evalInList.search] at found
      cases hasNull with
      | true => exact .inl (Except.ok.inj found).symm
      | false => exact .inr ⟨false, (Except.ok.inj found).symm⟩
  | cons candidate rest inductionHypothesis =>
      rw [evalInList.search] at found
      cases compared : compareOp .eq probe candidate with
      | error error =>
          rw [compared] at found
          cases found
      | ok here =>
          rw [compared] at found
          dsimp only [bind, Except.bind] at found
          split at found
          case isTrue => exact .inr ⟨true, (Except.ok.inj found).symm⟩
          case isFalse => exact inductionHypothesis found

/-- A candidate that differs leaves the others to decide. -/
theorem search_false (hasNull : Bool) :
    evalInList.search probe hasNull values =
      evalInList.search probe hasNull values >>= PrehniteDB.logic .or (.bool false) := by
  cases found : evalInList.search probe hasNull values with
  | error error => rfl
  | ok verdict =>
      rcases search_truth found with rfl | ⟨truth, rfl⟩
      · rfl
      · cases truth <;> rfl

theorem search_eq (probeSome : probe.isNull = false) :
    evalInList.search probe (values.any Value.isNull) (values.filter (!·.isNull)) =
      anyEqual probe values := by
  induction values with
  | nil => rfl
  | cons candidate rest inductionHypothesis =>
      rw [anyEqual, ← inductionHypothesis]
      cases missing : candidate.isNull with
      | true =>
          have compared : compareOp .eq probe candidate = .ok .null := by
            unfold compareOp
            rw [missing, Bool.or_true]
            rfl
          rw [compared, List.any_cons, missing, Bool.true_or, List.filter_cons_of_neg (by simp [missing])]
          exact search_null _
      | false =>
          rw [List.any_cons, missing, Bool.false_or,
            List.filter_cons_of_pos (by simp [missing]), evalInList.search]
          cases compared : compareOp .eq probe candidate with
          | error error => rfl
          | ok here =>
              obtain ⟨truth, rfl⟩ := compareOp_bool probeSome missing compared
              cases truth with
              | true => rfl
              | false => exact search_false _

theorem evalInList_eq (probe : Value) (values : List Value) :
    evalInList probe (values.filter (!·.isNull)) (values.any Value.isNull) =
      isMember probe values := by
  unfold evalInList isMember
  cases missing : probe.isNull with
  | true => rfl
  | false => exact search_eq missing

end Membership

/-! ## Substitution -/

section Results

variable {First Second Whole : Type}

theorem bind_pure_ok
    {first : Except Error First}
    {make : First → Whole}
    {value : First}
    (injective : Function.Injective make) :
    (first >>= fun result => pure (make result)) = .ok (make value) ↔ first = .ok value := by
  cases first with
  | error error => exact ⟨nofun, nofun⟩
  | ok result =>
      constructor
      · intro same
        exact congrArg Except.ok (injective (Except.ok.inj same))
      · intro same
        rw [same]
        rfl

theorem bind_bind_pure_ok
    {first : Except Error First}
    {second : Except Error Second}
    {make : First → Second → Whole}
    {value : First}
    {other : Second}
    (injective : Function.Injective2 make) :
    (first >>= fun result => second >>= fun next => pure (make result next)) =
        .ok (make value other) ↔
      first = .ok value ∧ second = .ok other := by
  cases first with
  | error error => exact ⟨nofun, nofun⟩
  | ok result =>
      cases second with
      | error error => exact ⟨nofun, fun both => nomatch both.2⟩
      | ok next =>
          constructor
          · intro same
            obtain ⟨rfl, rfl⟩ := injective (Except.ok.inj same)
            exact ⟨rfl, rfl⟩
          · rintro ⟨same, sameNext⟩
            rw [same, sameNext]
            rfl

theorem bind_three_ok
    {Third : Type}
    {first : Except Error First}
    {second : Except Error Second}
    {third : Except Error Third}
    {make : First → Second → Third → Whole}
    {value : First}
    {other : Second}
    {last : Third}
    (injective : ∀ {a b c x y z}, make a b c = make x y z → a = x ∧ b = y ∧ c = z) :
    (do
        let result ← first
        let next ← second
        let final ← third
        pure (make result next final)) =
        .ok (make value other last) ↔
      first = .ok value ∧ second = .ok other ∧ third = .ok last := by
  cases first with
  | error error => exact ⟨nofun, fun all => nomatch all.1⟩
  | ok result =>
      cases second with
      | error error => exact ⟨nofun, fun all => nomatch all.2.1⟩
      | ok next =>
          cases third with
          | error error => exact ⟨nofun, fun all => nomatch all.2.2⟩
          | ok final =>
              constructor
              · intro same
                obtain ⟨rfl, rfl, rfl⟩ := injective (Except.ok.inj same)
                exact ⟨rfl, rfl, rfl⟩
              · rintro ⟨same, sameNext, sameFinal⟩
                rw [same, sameNext, sameFinal]
                rfl

end Results

section Substitution

variable {inner outer : Scope} {row : List Value}

theorem refers_append {left right : List ColumnRef} :
    Refers inner outer (left ++ right) ↔
      Refers inner outer left ∧ Refers inner outer right :=
  List.forall_mem_append

theorem unambiguous_append {left right : List ColumnRef} :
    Unambiguous inner (left ++ right) ↔ Unambiguous inner left ∧ Unambiguous inner right :=
  List.forall_mem_append

theorem resolve_of_not_own {ref : ColumnRef} (foreign : isOwn inner ref = false) :
    ∃ error, inner.resolve ref = .error error := by
  have nowhere : inner.findIdxs ref.names = [] := by
    rw [List.findIdxs_eq_nil_iff]
    exact fun other listed => Bool.eq_false_iff.mpr (List.any_eq_false.mp foreign other listed)
  unfold Scope.resolve
  rw [nowhere]
  exact ⟨_, rfl⟩

theorem valueToExpr_ne_column {value : Value} {ref : ColumnRef} :
    valueToExpr value ≠ .column ref := by
  cases value <;> nofun

theorem substitute_column_iff
    {ref : ColumnRef}
    (refers : isOwn inner ref = false → ∃ position, outer.resolve ref = .ok position) :
    substituteInExpr inner outer row (.column ref) = .ok (scopedRef inner outer row ref) ↔
      (isOwn inner ref = true → ∃ position, inner.resolve ref = .ok position) := by
  unfold scopedRef
  rw [substituteInExpr]
  cases own : isOwn inner ref with
  | false =>
      obtain ⟨error, unresolved⟩ := resolve_of_not_own own
      obtain ⟨position, found⟩ := refers own
      rw [unresolved, found]
      simp
  | true =>
      cases resolved : inner.resolve ref with
      | ok position => simp
      | error error =>
          simp only [if_true, reduceCtorEq, exists_false, imp_false, not_true, iff_false]
          cases outer.resolve ref with
          | error error => nofun
          | ok position => exact fun same => valueToExpr_ne_column (Except.ok.inj same)

/-- The substitution is the scoped one exactly where no name is ambiguous. -/
theorem substituteInExpr_iff : (expr : Expr) → Refers inner outer (refsOf expr) →
    (substituteInExpr inner outer row expr =
        .ok (replaceRefs (scopedRef inner outer row) expr) ↔
      Unambiguous inner (refsOf expr))
  | .column ref, refers => by
      rw [replaceRefs, substitute_column_iff (refers ref (List.mem_singleton_self _)), refsOf,
        Unambiguous, List.forall_mem_singleton]
  | .unary op expr, refers =>
      (bind_pure_ok fun _ _ => by simp).trans (substituteInExpr_iff expr refers)
  | .isNull expr negated, refers =>
      (bind_pure_ok fun _ _ => by simp).trans (substituteInExpr_iff expr refers)
  | .inList expr values hasNull negated, refers =>
      (bind_pure_ok fun _ _ => by simp).trans (substituteInExpr_iff expr refers)
  | .inSubquery expr subquery negated, refers =>
      (bind_pure_ok fun _ _ => by simp).trans (substituteInExpr_iff expr refers)
  | .correlatedInSubquery expr subquery negated, refers =>
      (bind_pure_ok fun _ _ => by simp).trans (substituteInExpr_iff expr refers)
  | .binary op left right, refers => by
      obtain ⟨refersLeft, refersRight⟩ := refers_append.mp refers
      rw [refsOf, unambiguous_append, ← substituteInExpr_iff left refersLeft,
        ← substituteInExpr_iff right refersRight]
      exact bind_bind_pure_ok fun _ _ _ _ => by simp
  | .null, _ | .integer _, _ | .real _, _ | .str _, _ | .bool _, _ | .placeholder _, _
  | .aggregate _, _ | .exists_ _, _ | .scalarSubquery _, _ | .correlatedExists _, _
  | .correlatedScalarSubquery _, _ => by
      simp [substituteInExpr, replaceRefs, refsOf, Unambiguous]

theorem substituteInOption_iff
    (expr : Option Expr)
    (refers : Refers inner outer (expr.toList.flatMap refsOf)) :
    substituteInOption inner outer row expr =
        .ok (expr.map (replaceRefs (scopedRef inner outer row))) ↔
      Unambiguous inner (expr.toList.flatMap refsOf) := by
  cases expr with
  | none => simp [substituteInOption, Unambiguous]
  | some expr =>
      rw [Option.toList_some, List.flatMap_singleton] at refers ⊢
      exact (bind_pure_ok (Option.some_injective _)).trans (substituteInExpr_iff expr refers)

theorem substituteInItem_iff
    (item : SelectItem)
    (refers : Refers inner outer (refsOfItem item)) :
    substituteInItem inner outer row item =
        .ok (replaceInItem (scopedRef inner outer row) item) ↔
      Unambiguous inner (refsOfItem item) := by
  cases item with
  | expr expr =>
      exact (bind_pure_ok fun _ _ => SelectItem.expr.inj).trans (substituteInExpr_iff expr refers)
  | _ => simp [substituteInItem, replaceInItem, refsOfItem, Unambiguous]

theorem substituteInProjection_iff
    (projection : Projection)
    (refers : Refers inner outer (refsOfProjection projection)) :
    substituteInProjection inner outer row projection =
        .ok (replaceInProjection (scopedRef inner outer row) projection) ↔
      Unambiguous inner (refsOfProjection projection) := by
  cases projection with
  | all => simp [substituteInProjection, replaceInProjection, refsOfProjection, Unambiguous]
  | items items =>
      have each :
          items.mapM (substituteInItem inner outer row) =
              .ok (items.map (replaceInItem (scopedRef inner outer row))) ↔
            Unambiguous inner (items.flatMap refsOfItem) := by
        rw [refsOfProjection] at refers
        induction items with
        | nil => simp [Unambiguous, pure, Except.pure]
        | cons item rest inductionHypothesis =>
            rw [List.flatMap_cons] at refers ⊢
            obtain ⟨refersItem, refersRest⟩ := refers_append.mp refers
            rw [unambiguous_append, ← substituteInItem_iff item refersItem,
              ← inductionHypothesis refersRest, List.mapM_cons]
            exact bind_bind_pure_ok fun _ _ _ _ => List.cons.inj
      exact (bind_pure_ok fun _ _ => Projection.items.inj).trans each

/-- A subquery gets the values of the outer row exactly where it should. -/
theorem substituteInStatement_iff
    (subquery : Statement)
    (refers : Refers inner outer (refsOfSubquery subquery)) :
    substituteInStatement inner outer row subquery =
        .ok (replaceInSubquery (scopedRef inner outer row) subquery) ↔
      Unambiguous inner (refsOfSubquery subquery) := by
  cases subquery with
  | select source projection filter groupBy having orderBy limit offset =>
      rw [refsOfSubquery] at refers ⊢
      obtain ⟨refersBoth, refersProjection⟩ := refers_append.mp refers
      obtain ⟨refersFilter, refersHaving⟩ := refers_append.mp refersBoth
      rw [unambiguous_append, unambiguous_append,
        ← @substituteInOption_iff inner outer row filter refersFilter,
        ← @substituteInOption_iff inner outer row having refersHaving,
        ← @substituteInProjection_iff inner outer row projection refersProjection, and_assoc]
      have injective {filter other : Option Expr} {having next : Option Expr}
          {projection last : Projection}
          (same :
            Statement.select source projection filter groupBy having orderBy limit offset =
              .select source last other groupBy next orderBy limit offset) :
          filter = other ∧ having = next ∧ projection = last := by
        cases same
        exact ⟨rfl, rfl, rfl⟩
      exact bind_three_ok injective
  | _ => simp [substituteInStatement, replaceInSubquery, refsOfSubquery, Unambiguous]

end Substitution

/-! ## The value of a predicate -/

/-- The same result, or an error on both sides. -/
def Agree {Result : Type} (first second : Except Error Result) : Prop :=
  ∀ result, first = .ok result ↔ second = .ok result

section Agreement

variable {First Second Result : Type} {first other last : Except Error First}

theorem Agree.refl (first : Except Error First) : Agree first first := fun _ => Iff.rfl

theorem Agree.trans (agree : Agree first other) (next : Agree other last) : Agree first last :=
  fun result => (agree result).trans (next result)

theorem Agree.bind (agree : Agree first other) (next : First → Except Error Result) :
    Agree (first >>= next) (other >>= next) := by
  cases first with
  | ok value =>
      rw [(agree value).mp rfl]
      exact Agree.refl _
  | error error =>
      cases other with
      | error error => exact fun _ => ⟨nofun, nofun⟩
      | ok value => exact nomatch (agree value).mpr rfl

theorem Agree.bind_right
    {next after : First → Except Error Result}
    (agree : ∀ value, Agree (next value) (after value)) :
    Agree (first >>= next) (first >>= after) := by
  cases first with
  | error error => exact Agree.refl _
  | ok value => exact agree value

/-- Which of two runs comes first only decides which error is reported. -/
theorem Agree.swap
    (second : Except Error Second)
    (next : First → Second → Except Error Result) :
    Agree (first >>= fun value => second >>= next value)
      (second >>= fun after => first >>= fun value => next value after) := by
  cases first with
  | ok value => exact Agree.refl _
  | error error =>
      cases second with
      | error error => exact fun _ => ⟨nofun, nofun⟩
      | ok after => exact Agree.refl _

end Agreement

/-- The subqueries that are run for each outer row. -/
def subqueriesOf : PrehniteDB.Expr Statement → List Statement
  | .correlatedExists subquery | .correlatedScalarSubquery subquery => [subquery]
  | .correlatedInSubquery expr subquery _ => subquery :: subqueriesOf expr
  | .unary _ expr | .isNull expr _ | .inList expr _ _ _ | .inSubquery expr _ _ =>
      subqueriesOf expr
  | .binary _ left right => subqueriesOf left ++ subqueriesOf right
  | _ => []

/-- The subqueries of a parsed predicate. -/
def writtenSubqueries : PrehniteDB.Expr Statement → List Statement
  | .exists subquery | .scalarSubquery subquery => [subquery]
  | .inSubquery expr subquery _ => subquery :: writtenSubqueries expr
  | .unary _ expr | .isNull expr _ | .inList expr _ _ _ | .correlatedInSubquery expr _ _ =>
      writtenSubqueries expr
  | .binary _ left right => writtenSubqueries left ++ writtenSubqueries right
  | _ => []

/-- No subquery is left that is run once for all rows. -/
def Prepared : PrehniteDB.Expr Statement → Prop
  | .exists _ | .scalarSubquery _ | .inSubquery .. => False
  | .unary _ expr | .isNull expr _ | .inList expr _ _ _ | .correlatedInSubquery expr _ _ =>
      Prepared expr
  | .binary _ left right => Prepared left ∧ Prepared right
  | _ => True

section Values

variable
  {catalog : Catalog}
  {run : Statement → Except Error QueryResult}
  {outer : Scope}
  {row : List Value}

/-- For this subquery, substitution is what it should be. -/
def Substituted (catalog : Catalog) (outer : Scope) (row : List Value) (subquery : Statement) :
    Prop :=
  Agree (substituteOuterRefs catalog outer row subquery)
    (valueOf (scopedSubquery catalog outer row subquery))

theorem eval_valueToLiteral (value : Value) :
    PrehniteDB.eval outer row (valueToLiteral value) = .ok value := by
  cases value <;> rfl

theorem Agree.of_bind
    {First Result : Type}
    {first : Except Error First}
    {made : Option First}
    {next : First → Except Error Result}
    {meant : First → Option Result}
    (agree : Agree first (valueOf made))
    (each : ∀ value, Agree (next value) (valueOf (meant value))) :
    Agree (first >>= next) (valueOf (made.bind meant)) := by
  refine (agree.bind next).trans ?_
  cases made with
  | none => exact Agree.refl _
  | some value => exact each value

/-- The rows of a statement that ran, for what is made of them. -/
theorem runSubqueryForRows_means (kind : String) (closed : Statement) :
    Agree (runSubqueryForRows run kind closed)
      (valueOf ((rowsOf (run closed)).bind ResultRows.singleColumn)) := by
  unfold runSubqueryForRows ResultRows.singleColumn
  cases run closed with
  | error error => exact fun _ => ⟨nofun, nofun⟩
  | ok answer =>
      cases answer with
      | ack message => exact fun _ => ⟨nofun, nofun⟩
      | rows result =>
          dsimp only [bind, Except.bind, rowsOf, Option.bind]
          split
          case isTrue => exact Agree.refl _
          case isFalse => exact fun _ => ⟨nofun, nofun⟩

theorem executeExistsSubquery_means (closed : Statement) :
    Agree (executeExistsSubquery run closed >>= fun any => pure (Value.bool any))
      (valueOf ((rowsOf (run closed)).map ResultRows.existence)) := by
  unfold executeExistsSubquery
  cases run closed with
  | error error => exact fun _ => ⟨nofun, nofun⟩
  | ok answer =>
      cases answer with
      | ack message => exact fun _ => ⟨nofun, nofun⟩
      | rows result =>
          cases result with
          | mk columns rows => cases rows <;> exact Agree.refl _

theorem executeScalarSubquery_means (closed : Statement) :
    Agree (executeScalarSubquery run closed)
      (valueOf ((rowsOf (run closed)).bind ResultRows.scalar)) := by
  rw [show ResultRows.scalar = fun result => result.singleColumn.bind ResultRows.atMostOne from rfl,
    ← Option.bind_assoc]
  refine (@runSubqueryForRows_means run "scalar" closed).of_bind fun values => ?_
  rcases values with - | ⟨value, - | ⟨second, rest⟩⟩
  · exact Agree.refl _
  · exact Agree.refl _
  · exact fun _ => ⟨nofun, nofun⟩

theorem exists_means
    {subquery : Statement}
    (substituted : Substituted catalog outer row subquery) :
    Agree
      (substituteOuterRefs catalog outer row subquery >>= fun closed =>
        executeExistsSubquery run closed >>= fun any => pure (Value.bool any))
      ((outerReading catalog run outer row).existence subquery) := by
  have means := substituted.of_bind (@executeExistsSubquery_means run)
  simp only [outerReading, relationOf, Option.map_bind]
  exact means

theorem scalar_means
    {subquery : Statement}
    (substituted : Substituted catalog outer row subquery) :
    Agree
      (substituteOuterRefs catalog outer row subquery >>= executeScalarSubquery run)
      ((outerReading catalog run outer row).scalar subquery) := by
  have means := substituted.of_bind (@executeScalarSubquery_means run)
  simp only [outerReading, relationOf, Option.bind_assoc]
  exact means

theorem candidates_mean
    {subquery : Statement}
    (substituted : Substituted catalog outer row subquery) :
    Agree
      (substituteOuterRefs catalog outer row subquery >>= runSubqueryForRows run "IN")
      (valueOf
        ((relationOf catalog run outer row subquery).bind ResultRows.singleColumn)) := by
  have means := substituted.of_bind (@runSubqueryForRows_means run "IN")
  simp only [relationOf, Option.bind_assoc]
  exact means

theorem resolved_value (predicate : PrehniteDB.Expr Statement)
    (prepared : Prepared predicate)
    (substituted : ∀ subquery ∈ subqueriesOf predicate, Substituted catalog outer row subquery) :
    Agree (resolveCorrelated catalog run outer row predicate >>= PrehniteDB.eval outer row)
      ((outerReading catalog run outer row).value predicate) := by
  induction predicate with
  | unary op expr inductionHypothesis =>
      have inside := (inductionHypothesis prepared substituted).bind (evalUnary op)
      rw [bind_assoc] at inside
      rw [resolveCorrelated, bind_assoc]
      exact inside
  | isNull expr negated inductionHypothesis =>
      have inside := (inductionHypothesis prepared substituted).bind
        fun value => pure (Value.bool (value.isNull != negated))
      rw [bind_assoc] at inside
      rw [resolveCorrelated, bind_assoc]
      exact inside
  | inList expr values hasNull negated inductionHypothesis =>
      have inside := (inductionHypothesis prepared substituted).bind fun probe =>
        evalInList probe values hasNull >>= fun result => pure (negateWhen negated result)
      rw [bind_assoc] at inside
      rw [resolveCorrelated, bind_assoc]
      exact inside
  | binary op left right leftHypothesis rightHypothesis =>
      obtain ⟨preparedLeft, preparedRight⟩ := prepared
      have leftAgrees := leftHypothesis preparedLeft fun subquery listed =>
        substituted subquery (List.mem_append_left _ listed)
      have rightAgrees := rightHypothesis preparedRight fun subquery listed =>
        substituted subquery (List.mem_append_right _ listed)
      have values := (leftAgrees.bind fun leftValue =>
          (resolveCorrelated catalog run outer row right >>= PrehniteDB.eval outer row) >>=
            evalBinary op leftValue).trans
        (Agree.bind_right fun leftValue => rightAgrees.bind (evalBinary op leftValue))
      simp only [bind_assoc] at values
      simp only [resolveCorrelated, bind_assoc, pure_bind]
      -- The right side is resolved before the left one is evaluated.
      exact (Agree.bind_right fun resolvedLeft => Agree.swap _ _).trans values
  | correlatedExists subquery =>
      simp only [resolveCorrelated, bind_assoc, pure_bind]
      exact exists_means (substituted subquery (List.mem_singleton_self _))
  | correlatedScalarSubquery subquery =>
      have means := @scalar_means _ run _ _ _ (substituted subquery (List.mem_singleton_self _))
      simp only [resolveCorrelated, bind_assoc, pure_bind, eval_valueToLiteral]
      change Agree (_ >>= fun closed => executeScalarSubquery run closed >>= pure) _
      simp only [bind_pure]
      exact means
  | correlatedInSubquery expr subquery negated inductionHypothesis =>
      have inside := inductionHypothesis prepared fun other listed =>
        substituted other (List.mem_cons_of_mem _ listed)
      have candidates :=
        @candidates_mean _ run _ _ _ (substituted subquery List.mem_cons_self)
      -- The subquery is run before its probe is evaluated.
      have swapped := @Agree.swap _ _ _
        (valueOf
          ((relationOf catalog run outer row subquery).bind ResultRows.singleColumn))
        (resolveCorrelated catalog run outer row expr >>= PrehniteDB.eval outer row)
        fun values probe =>
          isMember probe values >>= fun result => pure (negateWhen negated result)
      have members := (candidates.bind _).trans (swapped.trans (inside.bind _))
      simp only [bind_assoc] at members
      simp only [resolveCorrelated, executeInSubquery, bind_assoc, pure_bind, PrehniteDB.eval,
        evalInList_eq]
      simp only [Reading.value, outerReading, bind_assoc]
      exact members
  | «exists» subquery => exact prepared.elim
  | scalarSubquery subquery => exact prepared.elim
  | inSubquery expr subquery negated inductionHypothesis => exact prepared.elim
  | _ => exact Agree.refl _

end Values

/-- What the subquery's `WHERE` says of a row of its own tables and the outer row. -/
def whereOf : Statement → Option Expr
  | .select _ _ filter _ _ _ _ _ => filter
  | _ => none

/-! ## Prepared predicates -/

section Preparation

variable
  {catalog : Catalog}
  {run : Statement → Except Error QueryResult}
  {outer inner : Scope}
  {row : List Value}

theorem hasOuterRef_iff : (expr : Expr) →
    (hasOuterRef inner expr = true ↔
      ∃ ref ∈ refsOf expr, ∃ error, inner.resolve ref = .error error)
  | .column ref => by
      rw [hasOuterRef, refsOf]
      cases resolved : inner.resolve ref <;> simp [resolved]
  | .unary _ expr | .isNull expr _ | .inList expr _ _ _ | .inSubquery expr _ _
  | .correlatedInSubquery expr _ _ => by
      rw [hasOuterRef, refsOf]
      exact hasOuterRef_iff expr
  | .binary _ left right => by
      rw [hasOuterRef, refsOf, Bool.or_eq_true, hasOuterRef_iff left, hasOuterRef_iff right]
      constructor
      · rintro (⟨ref, listed, rejected⟩ | ⟨ref, listed, rejected⟩)
        · exact ⟨ref, List.mem_append_left _ listed, rejected⟩
        · exact ⟨ref, List.mem_append_right _ listed, rejected⟩
      · rintro ⟨ref, listed, rejected⟩
        rcases List.mem_append.mp listed with listed | listed
        · exact .inl ⟨ref, listed, rejected⟩
        · exact .inr ⟨ref, listed, rejected⟩
  | .null | .integer _ | .real _ | .str _ | .bool _ | .placeholder _ | .aggregate _ | .exists_ _
  | .scalarSubquery _ | .correlatedExists _ | .correlatedScalarSubquery _ => by
      simp [hasOuterRef, refsOf]

theorem requireScope_of_found {table : TableRef} {scope : Scope}
    (found : findScope catalog table = .ok (some scope)) :
    requireScope catalog table = .ok scope := by
  obtain ⟨schema, read, made⟩ := Planner.bind_ok found
  obtain ⟨schema, rfl, rfl⟩ := Option.map_eq_some_iff.mp (Except.ok.inj made)
  rw [requireScope, read]
  rfl

theorem extendScope_of_found {joins : List (Join Expr)} {scope : Scope}
    (found : extendFound catalog joins scope = .ok (some inner)) :
    extendScope catalog joins scope = .ok inner := by
  induction joins generalizing scope with
  | nil =>
      cases found
      rfl
  | cons join rest inductionHypothesis =>
      obtain ⟨joined, read, found⟩ := Planner.bind_ok found
      cases joined with
      | none => cases found
      | some joined =>
          rw [extendScope, requireScope_of_found read]
          exact inductionHypothesis found

/-- Every subquery that was written has been run, or is left to be run for each outer row. -/
theorem prepareSubqueries_prepared
    {expr prepared : PrehniteDB.Expr Statement}
    (parsed : subqueriesOf expr = [])
    (made : prepareSubqueries catalog run expr = .ok prepared) :
    Prepared prepared ∧ subqueriesOf prepared ⊆ writtenSubqueries expr := by
  induction expr generalizing prepared with
  | unary op expr inductionHypothesis =>
      obtain ⟨inside, insideMade, rest⟩ := Planner.bind_ok made
      cases rest
      exact @inductionHypothesis inside parsed insideMade
  | isNull expr negated inductionHypothesis =>
      obtain ⟨inside, insideMade, rest⟩ := Planner.bind_ok made
      cases rest
      exact @inductionHypothesis inside parsed insideMade
  | inList expr values hasNull negated inductionHypothesis =>
      obtain ⟨inside, insideMade, rest⟩ := Planner.bind_ok made
      cases rest
      exact @inductionHypothesis inside parsed insideMade
  | binary op left right leftHypothesis rightHypothesis =>
      obtain ⟨parsedLeft, parsedRight⟩ := List.append_eq_nil_iff.mp parsed
      obtain ⟨insideLeft, leftMade, rest⟩ := Planner.bind_ok made
      obtain ⟨insideRight, rightMade, rest⟩ := Planner.bind_ok rest
      cases rest
      obtain ⟨preparedLeft, keptLeft⟩ := leftHypothesis parsedLeft leftMade
      obtain ⟨preparedRight, keptRight⟩ := rightHypothesis parsedRight rightMade
      refine ⟨⟨preparedLeft, preparedRight⟩, List.append_subset.mpr ⟨?_, ?_⟩⟩
      · exact fun subquery listed => List.mem_append_left _ (keptLeft listed)
      · exact fun subquery listed => List.mem_append_right _ (keptRight listed)
  | inSubquery expr subquery negated inductionHypothesis =>
      obtain ⟨inside, insideMade, rest⟩ := Planner.bind_ok made
      obtain ⟨correlated, decided, rest⟩ := Planner.bind_ok rest
      obtain ⟨preparedInside, keptInside⟩ := inductionHypothesis parsed insideMade
      cases correlated with
      | true =>
          cases rest
          exact ⟨preparedInside, List.cons_subset_cons subquery keptInside⟩
      | false =>
          obtain ⟨found, ran, rest⟩ := Planner.bind_ok rest
          cases rest
          exact ⟨preparedInside, List.subset_cons_of_subset subquery keptInside⟩
  | «exists» subquery =>
      obtain ⟨correlated, decided, rest⟩ := Planner.bind_ok made
      cases correlated with
      | true =>
          cases rest
          exact ⟨trivial, List.Subset.refl _⟩
      | false =>
          obtain ⟨any, ran, rest⟩ := Planner.bind_ok rest
          cases rest
          exact ⟨trivial, List.nil_subset _⟩
  | scalarSubquery subquery =>
      obtain ⟨correlated, decided, rest⟩ := Planner.bind_ok made
      cases correlated with
      | true =>
          cases rest
          exact ⟨trivial, List.Subset.refl _⟩
      | false =>
          obtain ⟨value, ran, rest⟩ := Planner.bind_ok rest
          cases rest
          cases value <;> exact ⟨trivial, List.nil_subset _⟩
  | correlatedExists subquery => cases parsed
  | correlatedScalarSubquery subquery => cases parsed
  | correlatedInSubquery expr subquery negated inductionHypothesis => cases parsed
  | _ =>
      cases made
      exact ⟨trivial, List.nil_subset _⟩

end Preparation

/-! ## Two scopes -/

/-- References are columns of a row of the subquery's own tables. -/
def Reading.single (nested : Reading) (inner : Scope) (innerRow : List Value) : Reading where
  column ref := (inner.resolve ref).map (PrehniteDB.column innerRow)
  existence := nested.existence
  scalar := nested.scalar
  membership := nested.membership

/-- The subquery's own columns hide those of the outer row. -/
def Reading.double
    (nested : Reading)
    (inner : Scope)
    (innerRow : List Value)
    (outer : Scope)
    (row : List Value) : Reading where
  column ref :=
    if isOwn inner ref then (inner.resolve ref).map (PrehniteDB.column innerRow)
    else (outer.resolve ref).map (PrehniteDB.column row)
  existence := nested.existence
  scalar := nested.scalar
  membership := nested.membership

/-- The expression for one outer row means for every row of the subquery what the two rows say. -/
def MeansBoth
    (inner outer : Scope)
    (row : List Value)
    (expr : Expr)
    (predicate : PrehniteDB.Expr Statement) : Prop :=
  ∃ closed,
    (replaceRefs (scopedRef inner outer row) expr).evaluable = some closed ∧
      ∀ (nested : Reading) (innerRow : List Value),
        (nested.single inner innerRow).value closed =
          (nested.double inner innerRow outer row).value predicate

section Scopes

variable {inner outer : Scope} {row : List Value}

theorem evaluable_valueToExpr (value : Value) :
    (valueToExpr value).evaluable = some (valueToLiteral value) := by
  cases value <;> rfl

theorem value_valueToLiteral (reading : Reading) (value : Value) :
    reading.value (valueToLiteral value) = .ok value := by
  cases value <;> rfl

theorem scopedRef_means
    {ref : ColumnRef}
    (refers : isOwn inner ref = false → ∃ position, outer.resolve ref = .ok position) :
    MeansBoth inner outer row (.column ref) (.column ref) := by
  unfold MeansBoth
  rw [replaceRefs, scopedRef]
  cases own : isOwn inner ref with
  | true =>
      refine ⟨.column ref, rfl, fun nested innerRow => ?_⟩
      simp only [Reading.value, Reading.single, Reading.double, own, if_true]
  | false =>
      obtain ⟨position, found⟩ := refers own
      rw [found]
      refine ⟨valueToLiteral (column row position), ?_, fun nested innerRow => ?_⟩
      · exact evaluable_valueToExpr _
      · simp only [Reading.value, Reading.double, own, Bool.false_eq_true, if_false, found]
        exact value_valueToLiteral _ _

theorem replaceRefs_means : (expr : Expr) → Refers inner outer (refsOf expr) →
    ∀ {predicate : PrehniteDB.Expr Statement}, expr.evaluable = some predicate →
    MeansBoth inner outer row expr predicate
  | .column ref, refers, predicate, made => by
      cases made
      exact scopedRef_means (refers ref (List.mem_singleton_self _))
  | .unary op expr, refers, predicate, made => by
      obtain ⟨inside, insideMade, rfl⟩ := Option.map_eq_some_iff.mp made
      obtain ⟨closed, closedMade, means⟩ := replaceRefs_means expr refers insideMade
      refine ⟨.unary op closed, ?_, fun nested innerRow => ?_⟩
      · rw [replaceRefs, Expr.evaluable, closedMade]
        rfl
      · rw [Reading.value, Reading.value, means]
  | .isNull expr negated, refers, predicate, made => by
      obtain ⟨inside, insideMade, rfl⟩ := Option.map_eq_some_iff.mp made
      obtain ⟨closed, closedMade, means⟩ := replaceRefs_means expr refers insideMade
      refine ⟨.isNull closed negated, ?_, fun nested innerRow => ?_⟩
      · rw [replaceRefs, Expr.evaluable, closedMade]
        rfl
      · rw [Reading.value, Reading.value, means]
  | .inSubquery expr subquery negated, refers, predicate, made => by
      obtain ⟨inside, insideMade, rfl⟩ := Option.map_eq_some_iff.mp made
      obtain ⟨closed, closedMade, means⟩ := replaceRefs_means expr refers insideMade
      refine ⟨.inSubquery closed subquery negated, ?_, fun nested innerRow => ?_⟩
      · rw [replaceRefs, Expr.evaluable, closedMade]
        rfl
      · rw [Reading.value, Reading.value, means]
        rfl
  | .correlatedInSubquery expr subquery negated, refers, predicate, made => by
      obtain ⟨inside, insideMade, rfl⟩ := Option.map_eq_some_iff.mp made
      obtain ⟨closed, closedMade, means⟩ := replaceRefs_means expr refers insideMade
      refine ⟨.correlatedInSubquery closed subquery negated, ?_, fun nested innerRow => ?_⟩
      · rw [replaceRefs, Expr.evaluable, closedMade]
        rfl
      · rw [Reading.value, Reading.value, means]
        rfl
  | .inList expr values hasNull negated, refers, predicate, made => by
      obtain ⟨inside, insideMade, rest⟩ := Option.bind_eq_some_iff.mp made
      obtain ⟨candidates, candidatesMade, made⟩ := Option.bind_eq_some_iff.mp rest
      obtain rfl := Option.some.inj made
      obtain ⟨closed, closedMade, means⟩ := replaceRefs_means expr refers insideMade
      refine ⟨.inList closed candidates hasNull negated, ?_, fun nested innerRow => ?_⟩
      · rw [replaceRefs, Expr.evaluable, closedMade, candidatesMade]
        rfl
      · rw [Reading.value, Reading.value, means]
  | .binary op left right, refers, predicate, made => by
      obtain ⟨refersLeft, refersRight⟩ := refers_append.mp refers
      obtain ⟨insideLeft, leftMade, rest⟩ := Option.bind_eq_some_iff.mp made
      obtain ⟨insideRight, rightMade, made⟩ := Option.bind_eq_some_iff.mp rest
      obtain rfl := Option.some.inj made
      obtain ⟨closedLeft, closedLeftMade, leftMeans⟩ :=
        replaceRefs_means left refersLeft leftMade
      obtain ⟨closedRight, closedRightMade, rightMeans⟩ :=
        replaceRefs_means right refersRight rightMade
      refine ⟨.binary op closedLeft closedRight, ?_, fun nested innerRow => ?_⟩
      · rw [replaceRefs, Expr.evaluable, closedLeftMade, closedRightMade]
        rfl
      · rw [Reading.value, Reading.value, leftMeans, rightMeans]
  | .placeholder _, _, _, made => nomatch made
  | .null, _, _, made | .integer _, _, _, made | .real _, _, _, made | .str _, _, _, made
  | .bool _, _, _, made | .aggregate _, _, _, made | .exists_ _, _, _, made
  | .scalarSubquery _, _, _, made | .correlatedExists _, _, _, made
  | .correlatedScalarSubquery _, _, _, made => by
      cases made
      exact ⟨_, rfl, fun _ _ => rfl⟩

end Scopes

/-! ## The subquery's own columns -/

section OwnColumns

variable {catalog : Catalog} {inner : Scope}

theorem requireScope_iff (table : TableRef) :
    requireScope catalog table = .ok inner ↔ columnsOf catalog table = some inner := by
  unfold requireScope columnsOf tableScope
  cases catalog.get table.name with
  | error error => exact ⟨nofun, nofun⟩
  | ok found =>
      cases found with
      | none => exact ⟨nofun, nofun⟩
      | some schema =>
          exact ⟨fun same => congrArg some (Except.ok.inj same),
            fun same => congrArg Except.ok (Option.some.inj same)⟩

theorem extendScope_iff (joins : List (Join Expr)) (scope : Scope) :
    extendScope catalog joins scope = .ok inner ↔
      ∃ scopes, joins.mapM (fun join => columnsOf catalog join.table) = some scopes ∧
        scope ++ scopes.flatten = inner := by
  induction joins generalizing scope with
  | nil => simp [extendScope]
  | cons join rest inductionHypothesis =>
      rw [extendScope, List.mapM_cons]
      cases read : requireScope catalog join.table with
      | error error =>
          have nothing : columnsOf catalog join.table = none :=
            Option.eq_none_iff_forall_not_mem.mpr fun joined found =>
              nomatch read.symm.trans ((requireScope_iff join.table).mpr found)
          rw [nothing]
          exact ⟨nofun, fun found => nomatch found.choose_spec.1⟩
      | ok joined =>
          rw [(requireScope_iff join.table).mp read]
          refine (inductionHypothesis (scope ++ joined)).trans ?_
          cases rest.mapM fun join => columnsOf catalog join.table with
          | none => simp
          | some scopes => simp [List.append_assoc]

theorem subqueryInnerScope_iff (subquery : Statement) :
    subqueryInnerScope catalog subquery = .ok inner ↔ ownColumns catalog subquery = some inner := by
  cases subquery with
  | select source projection filter groupBy having orderBy limit offset =>
      rw [subqueryInnerScope, ownColumns, tablesOf, List.mapM_cons, List.mapM_map]
      cases read : requireScope catalog source.table with
      | error error =>
          have nothing : columnsOf catalog source.table = none :=
            Option.eq_none_iff_forall_not_mem.mpr fun joined found =>
              nomatch read.symm.trans ((requireScope_iff source.table).mpr found)
          rw [nothing]
          exact ⟨nofun, nofun⟩
      | ok base =>
          rw [(requireScope_iff source.table).mp read]
          refine (extendScope_iff source.joins base).trans ?_
          simp only [Function.comp_def]
          cases source.joins.mapM fun join => columnsOf catalog join.table with
          | none => simp
          | some scopes => simp
  | _ => simp [subqueryInnerScope, ownColumns, tablesOf]

end OwnColumns

/-! ## The right scope -/

/-- Whatever runs the subquery, a predicate over it has the value that it means. -/
def RightValue
    (catalog : Catalog)
    (outer : Scope)
    (row : List Value)
    (subquery : Statement) : Prop :=
  ∀ (run : Statement → Except Error QueryResult) (predicate : PrehniteDB.Expr Statement),
    Prepared predicate →
    (∀ other ∈ subqueriesOf predicate, other = subquery) →
    Agree (resolveCorrelated catalog run outer row predicate >>= PrehniteDB.eval outer row)
      ((outerReading catalog run outer row).value predicate)

section RightScope

variable {catalog : Catalog} {outer : Scope} {row : List Value} {subquery : Statement}

theorem scopedSubquery_own
    {inner : Scope}
    (own : ownColumns catalog subquery = some inner) :
    scopedSubquery catalog outer row subquery =
      some (replaceInSubquery (scopedRef inner outer row) subquery) := by
  rw [scopedSubquery, own]
  rfl

/-- The same of a subquery. -/
theorem substituted_iff
    {inner : Scope}
    (own : ownColumns catalog subquery = some inner)
    (refers : Refers inner outer (refsOfSubquery subquery)) :
    Substituted catalog outer row subquery ↔ Unambiguous inner (refsOfSubquery subquery) := by
  rw [← @substituteInStatement_iff inner outer row subquery refers]
  unfold Substituted substituteOuterRefs
  rw [(subqueryInnerScope_iff subquery).mpr own, scopedSubquery_own own]
  constructor
  · exact fun agree => (agree _).mpr rfl
  · intro same
    change Agree (substituteInStatement inner outer row subquery) _
    rw [same]
    exact Agree.refl _

theorem Substituted.rightValue (substituted : Substituted catalog outer row subquery) :
    RightValue catalog outer row subquery :=
  fun _ predicate prepared only =>
    resolved_value predicate prepared fun other listed => only other listed ▸ substituted

/-- One who runs the two statements tells them apart. -/
theorem RightValue.substituted
    {inner : Scope}
    (own : ownColumns catalog subquery = some inner)
    (right : RightValue catalog outer row subquery) :
    Substituted catalog outer row subquery := by
  classical
  have closed := @scopedSubquery_own _ outer row _ _ own
  let run : Statement → Except Error QueryResult := fun statement =>
    if statement = replaceInSubquery (scopedRef inner outer row) subquery then
      .ok (.rows ⟨[], [#v[]]⟩)
    else .ok (.rows ⟨[], []⟩)
  have agree := right run (.correlatedExists subquery) trivial (by simp [subqueriesOf]) (.bool true)
  have found :
      (outerReading catalog run outer row).value (.correlatedExists subquery) =
        .ok (.bool true) := by
    simp [Reading.value, outerReading, relationOf, rowsOf, valueOf, closed, ResultRows.existence, run]
  have resolved := agree.mpr found
  unfold Substituted
  rw [closed]
  rw [resolveCorrelated] at resolved
  cases made : substituteOuterRefs catalog outer row subquery with
  | error error =>
      rw [made] at resolved
      cases resolved
  | ok statement =>
      by_cases same : statement = replaceInSubquery (scopedRef inner outer row) subquery
      · rw [same]
        exact Agree.refl _
      · rw [made] at resolved
        simp [executeExistsSubquery, run, same, bind, Except.bind, pure, Except.pure,
          PrehniteDB.eval] at resolved

end RightScope

/-! ## What a parsed predicate means -/

/--
The subquery's tables exist, none of its own references is ambiguous, the others
are to the outer row, and if there are any then its `WHERE` has one.
-/
def WellScoped (catalog : Catalog) (outer : Scope) (subquery : Statement) : Prop :=
  ∃ inner,
    ownColumns catalog subquery = some inner ∧
      Refers inner outer (refsOfSubquery subquery) ∧
      Unambiguous inner (refsOfSubquery subquery) ∧
      ((∀ ref ∈ refsOfSubquery subquery, isOwn inner ref = true) ∨
        ∃ filter, whereOf subquery = some filter ∧
          ∃ ref ∈ refsOf filter, isOwn inner ref = false)

section OwnReferences

variable {place : ColumnRef → Expr}

theorem replaceRefs_own : (expr : Expr) → (∀ ref ∈ refsOf expr, place ref = .column ref) →
    replaceRefs place expr = expr
  | .column ref, own => own ref (List.mem_singleton_self _)
  | .unary op expr, own => congrArg (Expr.unary op) (replaceRefs_own expr own)
  | .isNull expr negated, own => congrArg (Expr.isNull · negated) (replaceRefs_own expr own)
  | .inList expr values hasNull negated, own =>
      congrArg (Expr.inList · values hasNull negated) (replaceRefs_own expr own)
  | .inSubquery expr subquery negated, own =>
      congrArg (Expr.inSubquery · subquery negated) (replaceRefs_own expr own)
  | .correlatedInSubquery expr subquery negated, own =>
      congrArg (Expr.correlatedInSubquery · subquery negated) (replaceRefs_own expr own)
  | .binary op left right, own => by
      rw [replaceRefs,
        replaceRefs_own left fun ref listed => own ref (List.mem_append_left _ listed),
        replaceRefs_own right fun ref listed => own ref (List.mem_append_right _ listed)]
  | .null, _ | .integer _, _ | .real _, _ | .str _, _ | .bool _, _ | .placeholder _, _
  | .aggregate _, _ | .exists_ _, _ | .scalarSubquery _, _ | .correlatedExists _, _
  | .correlatedScalarSubquery _, _ => rfl

theorem replaceInOption_own
    (expr : Option Expr)
    (own : ∀ ref ∈ expr.toList.flatMap refsOf, place ref = .column ref) :
    expr.map (replaceRefs place) = expr := by
  cases expr with
  | none => rfl
  | some expr =>
      rw [Option.toList_some, List.flatMap_singleton] at own
      exact congrArg some (replaceRefs_own expr own)

theorem replaceInProjection_own
    (projection : Projection)
    (own : ∀ ref ∈ refsOfProjection projection, place ref = .column ref) :
    replaceInProjection place projection = projection := by
  cases projection with
  | all => rfl
  | items items =>
      refine congrArg Projection.items ((List.map_congr_left fun item listed => ?_).trans
        (List.map_id' items))
      cases item with
      | expr expr =>
          refine congrArg SelectItem.expr (replaceRefs_own expr fun ref inside => own ref ?_)
          exact List.mem_flatMap.mpr ⟨.expr expr, listed, inside⟩
      | _ => rfl

theorem replaceInSubquery_own
    (subquery : Statement)
    (own : ∀ ref ∈ refsOfSubquery subquery, place ref = .column ref) :
    replaceInSubquery place subquery = subquery := by
  cases subquery with
  | select source projection filter groupBy having orderBy limit offset =>
      have inFilter := replaceInOption_own filter fun ref listed =>
        own ref (List.mem_append_left _ (List.mem_append_left _ listed))
      have inHaving := replaceInOption_own having fun ref listed =>
        own ref (List.mem_append_left _ (List.mem_append_right _ listed))
      have inProjection := replaceInProjection_own projection fun ref listed =>
        own ref (List.mem_append_right _ listed)
      rw [replaceInSubquery, inFilter, inHaving, inProjection]
  | _ => rfl

end OwnReferences

section Parsed

variable
  {catalog : Catalog}
  {run : Statement → Except Error QueryResult}
  {outer inner : Scope}
  {row : List Value}

theorem columnsOf_of_missing {table : TableRef}
    (missing : findScope catalog table = .ok none) :
    columnsOf catalog table = none := by
  obtain ⟨schema, read, made⟩ := Planner.bind_ok missing
  have absent : schema = none := Option.map_eq_none_iff.mp (Except.ok.inj made)
  rw [columnsOf, read, absent]

theorem columnsOf_of_missing_join {joins : List (Join Expr)} {scope : Scope}
    (missing : extendFound catalog joins scope = .ok none) :
    joins.mapM (fun join => columnsOf catalog join.table) = none := by
  induction joins generalizing scope with
  | nil => cases missing
  | cons join rest inductionHypothesis =>
      obtain ⟨joined, read, missing⟩ := Planner.bind_ok missing
      rw [List.mapM_cons]
      cases joined with
      | none =>
          rw [columnsOf_of_missing read]
          rfl
      | some joined =>
          rw [inductionHypothesis missing]
          cases columnsOf catalog join.table <;> rfl

/-- The references in the `WHERE` of a subquery that is run once are its own. -/
theorem own_of_uncorrelated
    {subquery : Statement}
    {filter : Expr}
    (own : ownColumns catalog subquery = some inner)
    (decided : subqueryIsCorrelated catalog subquery = .ok false)
    (written : whereOf subquery = some filter) :
    ∀ ref ∈ refsOf filter, isOwn inner ref = true := by
  cases subquery with
  | select source projection other groupBy having orderBy limit offset =>
      cases written
      obtain ⟨base, read, decided⟩ := Planner.bind_ok decided
      cases base with
      | none =>
          rw [ownColumns, tablesOf, List.mapM_cons, columnsOf_of_missing read] at own
          cases own
      | some base =>
          obtain ⟨found, extended, decided⟩ := Planner.bind_ok decided
          cases found with
          | none =>
              rw [ownColumns, tablesOf, List.mapM_cons, List.mapM_map] at own
              simp [Function.comp_def, columnsOf_of_missing_join extended] at own
          | some found =>
              have same : inner = found := by
                have scope := (subqueryInnerScope_iff _).mpr own
                rw [subqueryInnerScope, requireScope_of_found read] at scope
                exact Except.ok.inj (scope.symm.trans (extendScope_of_found extended))
              intro ref listed
              by_contra foreign
              obtain ⟨error, rejected⟩ :=
                resolve_of_not_own (Bool.eq_false_of_not_eq_true foreign)
              rw [same] at rejected
              have outside : hasOuterRef found filter = true :=
                (hasOuterRef_iff filter).mpr ⟨ref, listed, error, rejected⟩
              exact nomatch outside.symm.trans (Except.ok.inj decided)
  | _ => cases written

/-- A subquery that is run once has the same rows for every outer row. -/
theorem relationOf_uncorrelated
    {subquery : Statement}
    (wellScoped : WellScoped catalog outer subquery)
    (decided : subqueryIsCorrelated catalog subquery = .ok false) :
    relationOf catalog run outer row subquery = rowsOf (run subquery) := by
  obtain ⟨inner, own, _, _, somewhere⟩ := wellScoped
  have all : ∀ ref ∈ refsOfSubquery subquery, isOwn inner ref = true := by
    rcases somewhere with all | ⟨filter, written, ref, listed, foreign⟩
    · exact all
    · exact nomatch (own_of_uncorrelated own decided written ref listed).symm.trans foreign
  have unchanged : replaceInSubquery (scopedRef inner outer row) subquery = subquery :=
    replaceInSubquery_own subquery fun ref listed => if_pos (all ref listed)
  rw [relationOf, scopedSubquery_own own, unchanged]
  rfl

/-- What was run once and what was left mean what was parsed. -/
theorem prepareSubqueries_means
    {expr prepared : PrehniteDB.Expr Statement}
    (made : prepareSubqueries catalog run expr = .ok prepared)
    (wellScoped : ∀ subquery ∈ writtenSubqueries expr, WellScoped catalog outer subquery) :
    (outerReading catalog run outer row).value prepared =
      (outerReading catalog run outer row).value expr := by
  induction expr generalizing prepared with
  | unary op expr inductionHypothesis =>
      obtain ⟨inside, insideMade, rest⟩ := Planner.bind_ok made
      cases rest
      rw [Reading.value, Reading.value, inductionHypothesis insideMade wellScoped]
  | isNull expr negated inductionHypothesis =>
      obtain ⟨inside, insideMade, rest⟩ := Planner.bind_ok made
      cases rest
      rw [Reading.value, Reading.value, inductionHypothesis insideMade wellScoped]
  | inList expr values hasNull negated inductionHypothesis =>
      obtain ⟨inside, insideMade, rest⟩ := Planner.bind_ok made
      cases rest
      rw [Reading.value, Reading.value, inductionHypothesis insideMade wellScoped]
  | correlatedInSubquery expr subquery negated inductionHypothesis =>
      cases made
      rfl
  | binary op left right leftHypothesis rightHypothesis =>
      obtain ⟨scopedLeft, scopedRight⟩ := List.forall_mem_append.mp wellScoped
      obtain ⟨insideLeft, leftMade, rest⟩ := Planner.bind_ok made
      obtain ⟨insideRight, rightMade, rest⟩ := Planner.bind_ok rest
      cases rest
      rw [Reading.value, Reading.value, leftHypothesis leftMade scopedLeft,
        rightHypothesis rightMade scopedRight]
  | inSubquery expr subquery negated inductionHypothesis =>
      obtain ⟨here, later⟩ := List.forall_mem_cons.mp wellScoped
      obtain ⟨inside, insideMade, rest⟩ := Planner.bind_ok made
      obtain ⟨correlated, decided, rest⟩ := Planner.bind_ok rest
      have probe := inductionHypothesis insideMade later
      cases correlated with
      | true =>
          cases rest
          rw [Reading.value, Reading.value, probe]
      | false =>
          obtain ⟨found, ran, rest⟩ := Planner.bind_ok rest
          cases rest
          obtain ⟨values, listed, rest⟩ := Planner.bind_ok ran
          cases rest
          have means := (@runSubqueryForRows_means run "IN" subquery values).mp listed
          have members (value : Value) :
              (outerReading catalog run outer row).membership value subquery =
                isMember value values := by
            simp only [outerReading, relationOf_uncorrelated here decided, means]
            rfl
          simp only [Reading.value, probe, members, evalInList_eq]
  | «exists» subquery =>
      obtain ⟨correlated, decided, rest⟩ := Planner.bind_ok made
      cases correlated with
      | true =>
          cases rest
          rfl
      | false =>
          obtain ⟨any, ran, rest⟩ := Planner.bind_ok rest
          cases rest
          have executed :
              (executeExistsSubquery run subquery >>= fun any => pure (Value.bool any)) =
                .ok (.bool any) := by
            rw [ran]
            rfl
          have means := (@executeExistsSubquery_means run subquery _).mp executed
          have here := wellScoped subquery (List.mem_singleton_self _)
          simp only [Reading.value, outerReading, relationOf_uncorrelated here decided, means]
  | scalarSubquery subquery =>
      obtain ⟨correlated, decided, rest⟩ := Planner.bind_ok made
      cases correlated with
      | true =>
          cases rest
          rfl
      | false =>
          obtain ⟨value, ran, rest⟩ := Planner.bind_ok rest
          cases rest
          have means := (@executeScalarSubquery_means run subquery value).mp ran
          have here := wellScoped subquery (List.mem_singleton_self _)
          simp only [Reading.value, value_valueToLiteral, outerReading,
            relationOf_uncorrelated here decided, means]
  | _ =>
      cases made
      rfl

/-- A parsed predicate that was prepared has the value that it means for every outer row. -/
theorem prepared_value
    {expr prepared : PrehniteDB.Expr Statement}
    (parsed : subqueriesOf expr = [])
    (made : prepareSubqueries catalog run expr = .ok prepared)
    (wellScoped : ∀ subquery ∈ writtenSubqueries expr, WellScoped catalog outer subquery) :
    Agree (resolveCorrelated catalog run outer row prepared >>= PrehniteDB.eval outer row)
      ((outerReading catalog run outer row).value expr) := by
  rw [← prepareSubqueries_means made wellScoped]
  refine resolved_value prepared (prepareSubqueries_prepared parsed made).1 ?_
  intro subquery listed
  obtain ⟨inner, own, refers, unambiguous, _⟩ :=
    wellScoped subquery ((prepareSubqueries_prepared parsed made).2 listed)
  exact (substituted_iff own refers).mpr unambiguous

end Parsed

/-- The values of the outer row take the right places where no own reference is ambiguous. -/
theorem correlated_iff
    (catalog : Catalog)
    (outer : Scope)
    (row : List Value)
    (subquery : Statement)
    {inner : Scope}
    (own : ownColumns catalog subquery = some inner)
    (refers : Refers inner outer (refsOfSubquery subquery)) :
    (RightValue catalog outer row subquery ↔ Unambiguous inner (refsOfSubquery subquery)) ∧
      ∀ filter predicate, whereOf subquery = some filter → filter.evaluable = some predicate →
        MeansBoth inner outer row filter predicate := by
  refine ⟨?_, fun filter predicate written made => ?_⟩
  · rw [← substituted_iff own refers]
    exact ⟨fun right => right.substituted own, Substituted.rightValue⟩
  · refine replaceRefs_means filter ?_ made
    cases subquery with
    | select source projection other groupBy having orderBy limit offset =>
        cases written
        rw [refsOfSubquery] at refers
        have refersFilter := (refers_append.mp (refers_append.mp refers).1).1
        rwa [Option.toList_some, List.flatMap_singleton] at refersFilter
    | _ => cases written

/-! ## Two tables with the same columns -/

def pairs (name : String) : SchemaCodec.Schema where
  name := name
  columns :=
    [{ name := "k", type := .int, notNull := false, foreignKey := none, stats := none },
      { name := "x", type := .int, notNull := false, foreignKey := none, stats := none }]
  root := 2
  nextRowid := 1
  rowCount := 0
  indexes := []
  primaryKeyColumn := none
  mutationsSinceAnalyze := 0

def pairsCatalog : Catalog :=
  [("a", SchemaCodec.encodeSchema (pairs "a")), ("b", SchemaCodec.encodeSchema (pairs "b"))]

def outerPair : Scope := [⟨"o", "x", .int⟩, ⟨"o", "y", .int⟩]

/-- `SELECT a.k FROM a WHERE x = bound`. -/
def ofOne (bound : Expr) : Statement :=
  .select ⟨⟨"a", none⟩, []⟩ (.items [.expr (.column ⟨some "a", "k"⟩)])
    (some (.binary (.comparison .eq) (.column ⟨none, "x"⟩) bound)) [] none [] none none

/-- `SELECT a.k FROM a JOIN b ON a.k = b.k WHERE key = 7`. -/
def ofBoth (key : Expr) : Statement :=
  .select
    ⟨⟨"a", none⟩,
      [⟨.inner, ⟨"b", none⟩,
        some (.binary (.comparison .eq) (.column ⟨some "a", "k"⟩) (.column ⟨some "b", "k"⟩))⟩]⟩
    (.items [.expr (.column ⟨some "a", "k"⟩)])
    (some (.binary (.comparison .eq) key (.integer 7))) [] none [] none none

theorem get_pairs (name : String) (listed : name = "a" ∨ name = "b") :
    pairsCatalog.get name = .ok (some (pairs name)) := by
  rcases listed with rfl | rfl <;> decide +kernel

theorem columnsOf_pairs (name : String) (listed : name = "a" ∨ name = "b") :
    columnsOf pairsCatalog ⟨name, none⟩ = some (tableScope ⟨name, none⟩ (pairs name)) := by
  rw [columnsOf, get_pairs name listed]
  rfl

theorem ownColumns_ofOne (bound : Expr) :
    ownColumns pairsCatalog (ofOne bound) = some (tableScope ⟨"a", none⟩ (pairs "a")) := by
  rw [ownColumns, ofOne, tablesOf, List.mapM_cons, columnsOf_pairs "a" (.inl rfl)]
  rfl

theorem ownColumns_ofBoth (key : Expr) :
    ownColumns pairsCatalog (ofBoth key) =
      some (tableScope ⟨"a", none⟩ (pairs "a") ++ tableScope ⟨"b", none⟩ (pairs "b")) := by
  rw [ownColumns, ofBoth, tablesOf, List.mapM_cons, columnsOf_pairs "a" (.inl rfl), List.map_cons,
    List.map_nil, List.mapM_cons, columnsOf_pairs "b" (.inr rfl)]
  rfl

theorem forall_refs_ofOne {holds : ColumnRef → Prop} {bound : Expr} :
    (∀ ref ∈ refsOfSubquery (ofOne bound), holds ref) ↔
      holds ⟨none, "x"⟩ ∧ (∀ ref ∈ refsOf bound, holds ref) ∧ holds ⟨some "a", "k"⟩ := by
  simp [refsOfSubquery, ofOne, refsOf, refsOfProjection, refsOfItem, or_imp, forall_and]

theorem refers_ofOne :
    Refers (tableScope ⟨"a", none⟩ (pairs "a")) outerPair
      (refsOfSubquery (ofOne (.column ⟨none, "y"⟩))) := by
  refine forall_refs_ofOne.mpr ⟨nofun, fun ref listed _ => ?_, nofun⟩
  obtain rfl := List.mem_singleton.mp listed
  exact ⟨1, rfl⟩

/-- The `x` of `a` hides the one of the outer row, which has a `y` that `a` has not. -/
theorem correlated_ofOne :
    (RightValue pairsCatalog outerPair [.int 5, .int 7] (ofOne (.column ⟨none, "y"⟩)) ↔
        Unambiguous (tableScope ⟨"a", none⟩ (pairs "a"))
          (refsOfSubquery (ofOne (.column ⟨none, "y"⟩)))) ∧
      ∀ filter predicate,
        whereOf (ofOne (.column ⟨none, "y"⟩)) = some filter →
        filter.evaluable = some predicate →
          MeansBoth (tableScope ⟨"a", none⟩ (pairs "a")) outerPair [.int 5, .int 7] filter
            predicate :=
  correlated_iff pairsCatalog outerPair [.int 5, .int 7] (ofOne (.column ⟨none, "y"⟩))
    (ownColumns_ofOne _) refers_ofOne

theorem correlated_ofOne_iff (bound : Expr) :
    subqueryIsCorrelated pairsCatalog (ofOne bound) =
      .ok (hasOuterRef (tableScope ⟨"a", none⟩ (pairs "a"))
        (.binary (.comparison .eq) (.column ⟨none, "x"⟩) bound)) := by
  rw [ofOne, subqueryIsCorrelated, findScope, get_pairs "a" (.inl rfl)]
  rfl

/-- Every statement finds the one row `7`. -/
def findsSeven : Statement → Except Error QueryResult :=
  fun _ => .ok (.rows ⟨["k"], [#v[.int 7]]⟩)

/-- `EXISTS (SELECT … WHERE x = y) AND x IN (SELECT … WHERE x = 7)`. -/
def existsAndMember : PrehniteDB.Expr Statement :=
  .binary (.logic .and) (.exists (ofOne (.column ⟨none, "y"⟩)))
    (.inSubquery (.column ⟨none, "x"⟩) (ofOne (.integer 7)) false)

theorem wellScoped_column : WellScoped pairsCatalog outerPair (ofOne (.column ⟨none, "y"⟩)) := by
  refine ⟨_, ownColumns_ofOne _, refers_ofOne, ?_, .inr ⟨_, rfl, ⟨none, "y"⟩, ?_, rfl⟩⟩
  · refine forall_refs_ofOne.mpr ⟨fun _ => ⟨_, rfl⟩, fun ref listed owned => ?_, fun _ => ⟨_, rfl⟩⟩
    obtain rfl := List.mem_singleton.mp listed
    cases owned
  · simp [refsOf]

theorem wellScoped_integer : WellScoped pairsCatalog outerPair (ofOne (.integer 7)) := by
  refine ⟨_, ownColumns_ofOne _, ?_, ?_, .inl ?_⟩
  · exact forall_refs_ofOne.mpr ⟨nofun, nofun, nofun⟩
  · exact forall_refs_ofOne.mpr ⟨fun _ => ⟨_, rfl⟩, nofun, fun _ => ⟨_, rfl⟩⟩
  · exact forall_refs_ofOne.mpr ⟨rfl, nofun, rfl⟩

/-- The first subquery is left for each outer row and the second is run once. -/
theorem prepared_existsAndMember :
    prepareSubqueries pairsCatalog findsSeven existsAndMember =
        .ok (.binary (.logic .and) (.correlatedExists (ofOne (.column ⟨none, "y"⟩)))
          (.inList (.column ⟨none, "x"⟩) [.int 7] false false)) ∧
      Agree
        (resolveCorrelated pairsCatalog findsSeven outerPair [.int 5, .int 7]
          (.binary (.logic .and) (.correlatedExists (ofOne (.column ⟨none, "y"⟩)))
            (.inList (.column ⟨none, "x"⟩) [.int 7] false false)) >>=
          PrehniteDB.eval outerPair [.int 5, .int 7])
        ((outerReading pairsCatalog findsSeven outerPair [.int 5, .int 7]).value
          existsAndMember) := by
  have made :
      prepareSubqueries pairsCatalog findsSeven existsAndMember =
        .ok (.binary (.logic .and) (.correlatedExists (ofOne (.column ⟨none, "y"⟩)))
          (.inList (.column ⟨none, "x"⟩) [.int 7] false false)) := by
    simp only [existsAndMember, prepareSubqueries, correlated_ofOne_iff]
    rfl
  refine ⟨made, prepared_value rfl made fun subquery listed => ?_⟩
  simp only [existsAndMember, writtenSubqueries, List.cons_append, List.nil_append,
    List.mem_cons, List.not_mem_nil, or_false] at listed
  rcases listed with rfl | rfl
  · exact wellScoped_column
  · exact wellScoped_integer

/-- `a` and `b` both have an `x`, and the one of the outer row takes their place. -/
theorem ambiguous_replaced :
    isOwn (tableScope ⟨"a", none⟩ (pairs "a") ++ tableScope ⟨"b", none⟩ (pairs "b"))
        ⟨none, "x"⟩ = true ∧
      substituteOuterRefs pairsCatalog outerPair [.int 5, .int 7] (ofBoth (.column ⟨none, "x"⟩)) =
        .ok (ofBoth (.integer 5)) ∧
      ¬ RightValue pairsCatalog outerPair [.int 5, .int 7] (ofBoth (.column ⟨none, "x"⟩)) := by
  have own := ownColumns_ofBoth (.column ⟨none, "x"⟩)
  have replaced :
      substituteOuterRefs pairsCatalog outerPair [.int 5, .int 7] (ofBoth (.column ⟨none, "x"⟩)) =
        .ok (ofBoth (.integer 5)) := by
    rw [substituteOuterRefs, (subqueryInnerScope_iff _).mpr own]
    rfl
  refine ⟨rfl, replaced, fun right => ?_⟩
  have substituted := right.substituted own
  rw [Substituted, replaced, scopedSubquery_own own] at substituted
  cases Except.ok.inj ((substituted _).mp rfl)

end PrehniteDB.Sql.Correlation
