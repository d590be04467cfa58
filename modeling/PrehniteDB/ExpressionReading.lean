import PrehniteDB.SqlParser
import PrehniteDB.SqlRendering

namespace PrehniteDB.Sql

open Sql.Parser
open TokenParser

/-!
# Reading expressions

Each level of the expression grammar reads the tokens of an expression that binds
at least as tightly, in front of a token that could not belong to it.  An
expression in parentheses is read by the grammar one level deeper.
-/

/-! ## Levels -/

/-- The level of the operators, calls and qualifiers that the token belongs to. -/
def Token.level : Token → Option Nat
  | .keyword .or => some 0
  | .keyword .and => some 1
  | .eq | .notEq | .lt | .ltEq | .gt | .gtEq | .keyword .in_ | .keyword .not =>
      some COMPARISON_LEVEL
  | .plus | .minus => some 4
  | .star | .slash => some 5
  | .keyword .is => some POSTFIX_LEVEL
  | .lParen | .dot => some PRIMARY_LEVEL
  | _ => none

/-- An expression of the level, or a tighter one, does not go on here. -/
def Stops (level : Nat) (rest : List Token) : Prop :=
  ∀ token ∈ rest.head?, ∀ other ∈ Token.level token, other < level

theorem Stops.mono {low high : Nat} {rest : List Token} (stops : Stops low rest)
    (below : low ≤ high) : Stops high rest :=
  fun token first other own => (stops token first other own).trans_le below

theorem stops_cons {level : Nat} {token : Token} {rest : List Token}
    (other : ∀ own ∈ Token.level token, own < level) : Stops level (token :: rest) := by
  rintro _ ⟨⟩
  exact other

theorem Stops.not_head {level : Nat} {rest : List Token} (stops : Stops level rest)
    {token : Token} {own : Nat} (known : Token.level token = some own) (high : level ≤ own) :
    rest.head? ≠ some token := by
  intro first
  exact absurd (stops token first own known) (by omega)

theorem level_binary (op : BinaryOp) :
    Token.level (BinaryOp.token op) = some (BinaryOp.level op) := by
  rcases op with (_ | _ | _ | _) | (_ | _ | _ | _ | _ | _) | (_ | _) <;> rfl

variable (rules : TextRules) (rounds : Nat) (nested : Nested)

/-- The function of the grammar for a level; the signs and `NOT`s of two of them are bounded. -/
def levelParser (bound : Nat) : Nat → Parser Expr
  | 0 => orExpr rules rounds nested
  | 1 => andExpr rules rounds nested
  | 2 => notExpr rules rounds nested bound
  | 3 => comparison rules rounds nested
  | 4 => additive rules rounds nested
  | 5 => multiplicative rules rounds nested
  | 6 => unary rules nested bound
  | 7 => postfixExpr rules nested
  | _ => primary rules nested

/-- The levels whose operators are grouped to the left. -/
def Grouping (level : Nat) : Prop :=
  level = 0 ∨ level = 1 ∨ level = 3 ∨ level = 4 ∨ level = 5

def levelOp : Nat → Token → Option BinaryOp
  | 0 => keywordOp .or (.logic .or)
  | 1 => keywordOp .and (.logic .and)
  | 3 => comparisonOp
  | 4 => additiveOp
  | 5 => multiplicativeOp
  | _ => fun _ => none

/-- What a loop does with the expression so far. -/
def levelRound (level : Nat) : Expr → Parser (Expr ⊕ Expr) :=
  if level = 3 then comparisonRound rules rounds nested
  else operatorRound (levelOp level) (levelParser rules rounds nested rounds (level + 1))

theorem levelParser_grouping {level : Nat} (grouping : Grouping level) (bound : Nat) :
    levelParser rules rounds nested bound level =
      levelParser rules rounds nested rounds (level + 1) >>=
        loop exhausted (levelRound rules rounds nested level) rounds := by
  rcases grouping with rfl | rfl | rfl | rfl | rfl <;> rfl

theorem levelOp_token (op : BinaryOp) :
    levelOp (BinaryOp.level op) (BinaryOp.token op) = some op := by
  rcases op with (_ | _ | _ | _) | (_ | _ | _ | _ | _ | _) | (_ | _) <;> rfl

theorem levelOp_level {level : Nat} {token : Token} {op : BinaryOp}
    (found : levelOp level token = some op) : Token.level token = some level := by
  unfold levelOp at found
  split at found
  case h_1 | h_2 =>
    obtain ⟨rfl, -⟩ := Option.ite_none_right_eq_some.mp found
    rfl
  case h_3 => cases token <;> first | rfl | cases found
  case h_4 => cases token <;> first | rfl | cases found
  case h_5 => cases token <;> first | rfl | cases found
  case h_6 => cases found

theorem grouping_binary (op : BinaryOp) : Grouping (BinaryOp.level op) := by
  rcases op with (_ | _ | _ | _) | (_ | _ | _ | _ | _ | _) | (_ | _) <;>
    simp [Grouping, BinaryOp.level]

/-! ## Tokens that are read or left -/

section Single

variable {rules rounds nested} {follows : List Token → Prop}

theorem reads_eatToken (token : Token) : Reads (eatToken token) [token] follows true := by
  have taken : (if token = token then some () else none) = some () := if_pos rfl
  exact Reads.bind_end (reads_eat taken) (Reads.pure true)

theorem reads_eatToken_none {token : Token}
    (refused : ∀ rest, follows rest → rest.head? ≠ some token) :
    Reads (eatToken token) [] follows false := by
  refine Reads.bind_end (reads_eat_none fun rest allowed other first => ?_) (Reads.pure false)
  have apart : other ≠ token := fun same => refused rest allowed (same ▸ first)
  exact if_neg apart

theorem reads_eatToken_other (token : Token) :
    Reads (eatToken token) [] (fun rest => rest.head? ≠ some token) false :=
  reads_eatToken_none fun _ other => other

theorem reads_expect (token : Token) : Reads (expect rules token) [token] follows () :=
  Reads.bind_end (reads_eatToken token) (Reads.pure ())

theorem reads_expectKeyword (word : Keyword) :
    Reads (expectKeyword rules word) [.keyword word] follows () :=
  Reads.bind_end (reads_eatToken (.keyword word)) (Reads.pure ())

theorem reads_expectName (name : String) :
    Reads (expectName rules) [.ident name] follows name :=
  reads_advance (Reads.pure name)

/-- Behind the parentheses anything may follow. -/
theorem reads_parenthesised
    {Inner : Type}
    {inner : Parser Inner}
    {tokens : List Token}
    {content : Inner}
    {between : List Token → Prop}
    (reads : Reads inner tokens between content)
    (closes : ∀ rest, between (.rParen :: rest)) :
    Reads (parenthesised rules inner) (tokens ++ [.rParen]) follows content := by
  refine Reads.bind reads (fun rest _ => closes rest) ?_
  exact Reads.bind_end (reads_expect .rParen) (Reads.pure content)

end Single

/-! ## Rounds -/

section Rounds

variable {rules rounds nested} {level : Nat} {left right : Expr} {tokens : List Token}

/-- A statement in parentheses ends there. -/
def Closes (rest : List Token) : Prop := ∀ token ∈ rest.head?, token = .rParen

theorem closes_rParen (rest : List Token) : Closes (.rParen :: rest) := by
  rintro _ ⟨⟩
  rfl

theorem levelOp_stops {rest : List Token} (stops : Stops level rest) :
    ∀ token ∈ rest.head?, levelOp level token = none := by
  intro token first
  cases found : levelOp level token with
  | none => rfl
  | some op => exact absurd (stops token first level (levelOp_level found)) (lt_irrefl level)

theorem membershipNext_stops :
    Reads membershipNext [] (Stops COMPARISON_LEVEL) none := by
  intro rest memory stops
  have notIn := @Stops.not_head _ _ stops (.keyword .in_) _ rfl le_rfl
  have notNot := @Stops.not_head _ _ stops (.keyword .not) _ rfl le_rfl
  cases rest with
  | nil => rfl
  | cons token rest =>
      unfold membershipNext
      simp only [List.nil_append]
      split
      case h_1 shape => exact absurd (congrArg List.head? shape) notNot
      case h_2 shape => exact absurd (congrArg List.head? shape) notIn
      case h_3 => rfl

theorem round_ends :
    Reads (levelRound rules rounds nested level left) [] (Stops level) (Sum.inr left) := by
  unfold levelRound
  split
  case isTrue comparison =>
    subst comparison
    refine Reads.bind_end (reads_eat_none fun rest => levelOp_stops) ?_
    exact Reads.bind_end membershipNext_stops (Reads.pure (Sum.inr left))
  case isFalse =>
    exact Reads.bind_end (reads_eat_none fun rest => levelOp_stops) (Reads.pure (Sum.inr left))

/-- An operator of the level and what stands on its right. -/
theorem round_takes
    {op : BinaryOp}
    (operand :
      Reads (levelParser rules rounds nested rounds (BinaryOp.level op + 1)) tokens
        (Stops (BinaryOp.level op + 1)) right) :
    Reads (levelRound rules rounds nested (BinaryOp.level op) left) (BinaryOp.token op :: tokens)
      (Stops (BinaryOp.level op + 1)) (Sum.inl (.binary op left right)) := by
  have known := levelOp_token op
  unfold levelRound
  split
  case isTrue comparison =>
    rw [comparison] at operand known ⊢
    refine Reads.token_then (reads_eat known) ?_
    exact Reads.bind_end operand (Reads.pure (Sum.inl (Expr.binary op left right)))
  case isFalse =>
    refine Reads.token_then (reads_eat known) ?_
    exact Reads.bind_end operand (Reads.pure (Sum.inl (Expr.binary op left right)))

/-- `IN (...)`, and what was before it. -/
theorem round_membership
    {subquery : Statement}
    {negated : Bool}
    {follows : List Token → Prop}
    (inner : Reads nested.statement tokens Closes subquery) :
    Reads (levelRound rules rounds nested COMPARISON_LEVEL left)
      ((if negated then [.keyword .not] else []) ++
        .keyword .in_ :: .lParen :: (tokens ++ [.rParen]))
      follows (Sum.inl (.inSubquery left subquery negated)) := by
  have behind (negated : Bool) :
      Reads
        (do
          expectKeyword rules .in_
          let next ← membership rules nested left negated
          pure (Sum.inl next) : Parser (Expr ⊕ Expr))
        (.keyword .in_ :: .lParen :: (tokens ++ [.rParen])) follows
        (Sum.inl (.inSubquery left subquery negated)) := by
    refine Reads.token_then (reads_expectKeyword .in_) ?_
    refine Reads.bind_end ?_ (Reads.pure (Sum.inl (Expr.inSubquery left subquery negated)))
    refine Reads.token_then (reads_expect .lParen) ?_
    exact Reads.bind_end (reads_parenthesised inner closes_rParen) (Reads.pure _)
  intro rest memory allowed
  cases negated with
  | false => exact behind false rest memory allowed
  | true => exact behind true rest memory allowed

end Rounds

/-! ## Chains of operators -/

section Chains

variable {rules rounds nested} {level : Nat} {left right expr : Expr} {tokens later : List Token}

variable (rules rounds nested) in
/-- The function of the level reads the tokens, with any bound above their number. -/
def ReadsAt (level : Nat) (tokens : List Token) (expr : Expr) : Prop :=
  ∀ bound, tokens.length < bound →
    Reads (levelParser rules rounds nested bound level) tokens (Stops level) expr

variable (rules rounds nested) in
/--
The first operand and so many rounds of the loop come to the expression; what the
loop does from there on is left open.
-/
def Chained (level : Nat) (tokens : List Token) (expr : Expr) : Prop :=
  ∃ number ≤ tokens.length, ∀ more later follows result,
    (∀ rest, follows rest → Stops (level + 1) (later ++ rest)) →
    Reads (loop exhausted (levelRound rules rounds nested level) more expr) later follows result →
    Reads
      (levelParser rules rounds nested rounds (level + 1) >>=
        loop exhausted (levelRound rules rounds nested level) (more + number))
      (tokens ++ later) follows result

theorem chained_operand
    (fits : tokens.length < rounds)
    (operand : ReadsAt rules rounds nested (level + 1) tokens expr) :
    Chained rules rounds nested level tokens expr :=
  ⟨0, Nat.zero_le _, fun _ _ _ _ joined behind =>
    Reads.bind (operand rounds fits) joined behind⟩

theorem chained_round
    {next : List Token}
    (some : next ≠ [])
    (before : Chained rules rounds nested level tokens left)
    (stops : ∀ rest, Stops (level + 1) (next ++ rest))
    (round : Reads (levelRound rules rounds nested level left) next (Stops (level + 1))
      (Sum.inl expr)) :
    Chained rules rounds nested level (tokens ++ next) expr := by
  obtain ⟨number, few, chain⟩ := before
  have length := List.length_pos_iff.mpr some
  refine ⟨number + 1, by rw [List.length_append]; omega, ?_⟩
  intro more later follows result joined behind
  rw [List.append_assoc, ← Nat.add_assoc, Nat.add_right_comm]
  refine chain (more + 1) (next ++ later) follows result (fun rest _ => ?_)
    (reads_loop_round round joined behind)
  rw [List.append_assoc]
  exact stops (later ++ rest)

/-- The loop ends where nothing goes on. -/
theorem readsAt_of_chained
    (grouping : Grouping level)
    (fits : tokens.length < rounds)
    (chained : Chained rules rounds nested level tokens expr) :
    ReadsAt rules rounds nested level tokens expr := by
  intro bound _
  obtain ⟨number, few, chain⟩ := chained
  obtain ⟨more, enough⟩ : ∃ more, rounds = more + 1 + number := ⟨rounds - number - 1, by omega⟩
  have read := chain (more + 1) [] (Stops level) expr
    (fun rest stops => stops.mono (Nat.le_succ level))
    (reads_loop_end (Nat.succ_pos more) round_ends)
  rw [List.append_nil, ← enough] at read
  rw [levelParser_grouping rules rounds nested grouping]
  exact read

/-! ## Tighter expressions -/

/-- What a level looks for in front of its operand is not there. -/
def Starts (level : Nat) (tokens : List Token) : Prop :=
  (NOT_LEVEL < level → tokens.head? ≠ some (.keyword .not)) ∧
    (UNARY_LEVEL < level → tokens.head? ≠ some .minus)

theorem Starts.not_head
    {token : Token}
    (some : tokens ≠ [])
    (other : tokens.head? ≠ Option.some token)
    (rest : List Token) :
    (tokens ++ rest).head? ≠ Option.some token := by
  rw [List.head?_append_of_ne_nil _ some]
  exact other

theorem readsAt_looser
    (some : tokens ≠ [])
    (fits : tokens.length < rounds)
    (starts : Starts (level + 1) tokens)
    (below : level < PRIMARY_LEVEL)
    (tighter : ReadsAt rules rounds nested (level + 1) tokens expr) :
    ReadsAt rules rounds nested level tokens expr := by
  by_cases grouping : Grouping level
  · exact readsAt_of_chained grouping fits (chained_operand fits tighter)
  intro bound enough
  obtain ⟨bound, rfl⟩ : ∃ less, bound = less + 1 := ⟨bound - 1, by omega⟩
  have cases : level = NOT_LEVEL ∨ level = UNARY_LEVEL ∨ level = POSTFIX_LEVEL := by
    unfold Grouping PRIMARY_LEVEL NOT_LEVEL UNARY_LEVEL POSTFIX_LEVEL at *
    omega
  rcases cases with rfl | rfl | rfl
  · refine Reads.nothing_then (reads_eatToken_other (.keyword .not))
      (fun rest _ => Starts.not_head some (starts.1 (by decide)) rest) ?_
    exact (tighter rounds fits).mono fun rest stops => stops.mono (by decide)
  · refine Reads.nothing_then (reads_eatToken_other .minus)
      (fun rest _ => Starts.not_head some (starts.2 (by decide)) rest) ?_
    exact (tighter rounds fits).mono fun rest stops => stops.mono (by decide)
  · have reads : Reads (primary rules nested) tokens (Stops POSTFIX_LEVEL) expr :=
      (tighter rounds fits).mono fun rest stops => stops.mono (by decide)
    refine Reads.bind_end reads ?_
    exact Reads.bind_end
      (reads_eatToken_none fun rest stops => stops.not_head rfl le_rfl) (Reads.pure expr)

theorem readsAt_down
    (some : tokens ≠ [])
    (fits : tokens.length < rounds)
    {low high : Nat}
    (below : low ≤ high)
    (high_le : high ≤ PRIMARY_LEVEL)
    (starts : Starts high tokens)
    (own : ReadsAt rules rounds nested high tokens expr) :
    ReadsAt rules rounds nested low tokens expr := by
  induction high with
  | zero =>
      obtain rfl := Nat.le_zero.mp below
      exact own
  | succ high inductionHypothesis =>
      by_cases same : low = high + 1
      · rw [same]
        exact own
      · have looser := readsAt_looser some fits starts (by omega) own
        have weaker : Starts high tokens :=
          ⟨fun above => starts.1 (by omega), fun above => starts.2 (by omega)⟩
        exact inductionHypothesis (by omega) (by omega) weaker looser

end Chains

/-! ## How expressions begin -/

section Beginnings

variable {level place : Nat} {tokens : List Token}

structure Begins (level : Nat) (tokens : List Token) : Prop where
  some : tokens ≠ []
  starts : Starts level tokens
  noSelect : tokens.head? ≠ Option.some (.keyword .select)
  noStar : tokens.head? ≠ Option.some .star

theorem begins_cons {token : Token} {rest : List Token}
    (notNot : NOT_LEVEL < level → token ≠ .keyword .not)
    (notMinus : UNARY_LEVEL < level → token ≠ .minus)
    (noSelect : token ≠ .keyword .select)
    (noStar : token ≠ .star) :
    Begins level (token :: rest) where
  some := by simp
  starts := by
    constructor <;> intro above <;> rw [List.head?_cons, ne_eq, Option.some_inj]
    · exact notNot above
    · exact notMinus above
  noSelect := by
    rw [List.head?_cons, ne_eq, Option.some_inj]
    exact noSelect
  noStar := by
    rw [List.head?_cons, ne_eq, Option.some_inj]
    exact noStar

theorem Begins.append (begins : Begins level tokens) (rest : List Token) :
    Begins level (tokens ++ rest) := by
  have head : (tokens ++ rest).head? = tokens.head? :=
    List.head?_append_of_ne_nil tokens begins.some
  constructor
  · exact List.append_ne_nil_of_left_ne_nil begins.some rest
  · constructor <;> intro above <;> rw [head]
    · exact begins.starts.1 above
    · exact begins.starts.2 above
  · rw [head]
    exact begins.noSelect
  · rw [head]
    exact begins.noStar

theorem Begins.within (begins : Begins level tokens) :
    Begins place (within place level tokens) := by
  unfold Sql.within
  split
  case isTrue => exact begins_cons (by simp) (by simp) (by simp) (by simp)
  case isFalse tight =>
    exact ⟨begins.some, ⟨fun above => begins.starts.1 (by omega),
      fun above => begins.starts.2 (by omega)⟩, begins.noSelect, begins.noStar⟩

theorem columnTokens_begin (ref : ColumnRef) : Begins level (columnTokens ref) := by
  obtain ⟨_ | table, name⟩ := ref <;> exact begins_cons (by simp) (by simp) (by simp) (by simp)

theorem tokens_begin : (expr : Expr) → expr.Plain → Begins expr.level expr.tokens
  | .null, _ | .integer _, _ | .real _, _ | .str _, _ | .bool true, _ | .bool false, _
  | .aggregate _, _ | .exists_ _, _ | .scalarSubquery _, _ => by
      rw [Expr.tokens]
      exact begins_cons (by simp) (by simp) (by simp) (by simp)
  | .column ref, _ => by
      rw [Expr.tokens]
      exact columnTokens_begin ref
  | .unary .neg expr, _ => by
      rw [Expr.tokens]
      exact begins_cons (by simp) (by simp [Expr.level]) (by simp) (by simp)
  | .unary .not expr, _ => by
      rw [Expr.tokens]
      exact begins_cons (by simp [Expr.level]) (by simp) (by simp) (by simp)
  | .binary op left right, plain => by
      rw [Expr.Plain] at plain
      rw [Expr.tokens]
      exact (tokens_begin left plain.1).within.append _
  | .isNull expr negated, plain => by
      rw [Expr.Plain] at plain
      have begins : Begins PRIMARY_LEVEL (within PRIMARY_LEVEL expr.level expr.tokens) :=
        (tokens_begin expr plain).within
      have looser : Begins POSTFIX_LEVEL (within PRIMARY_LEVEL expr.level expr.tokens) :=
        ⟨begins.some, ⟨fun _ => begins.starts.1 (by decide), fun _ => begins.starts.2 (by decide)⟩,
          begins.noSelect, begins.noStar⟩
      rw [Expr.tokens]
      exact looser.append _
  | .inSubquery expr subquery negated, plain => by
      rw [Expr.Plain] at plain
      rw [Expr.tokens]
      exact (tokens_begin expr plain.1).within.append _

end Beginnings

/-! ## Primaries -/

/-- What lies in parentheses is read one level deeper, if it is short enough. -/
structure Nested.Reads (nested : Nested) (bound : Nat) : Prop where
  expr : ∀ expr : Expr, expr.Plain → expr.tokens.length < bound →
    TokenParser.Reads nested.expr expr.tokens (Stops 0) expr
  statement : ∀ statement : Statement, statement.Plain → statement.tokens.length < bound →
    TokenParser.Reads nested.statement statement.tokens Closes statement

section Primaries

variable {rules nested} {follows : List Token → Prop}

theorem reads_expectColumnRef (ref : ColumnRef) :
    Reads (expectColumnRef rules) (columnTokens ref) (fun rest => rest.head? ≠ some .dot) ref := by
  obtain ⟨_ | table, name⟩ := ref
  · refine Reads.bind_end (reads_expectName name) ?_
    exact Reads.bind_end (reads_eatToken_none fun _ other => other) (Reads.pure _)
  · refine Reads.token_then (reads_expectName table) ?_
    refine Reads.token_then (reads_eatToken .dot) ?_
    exact Reads.bind_end (reads_expectName name) (Reads.pure _)

theorem aggregateFunc_name (func : GroupedSelect.AggregateFunc) :
    aggregateFunc (GroupedSelect.funcName func) = .ok func := by
  cases func <;> rfl

theorem reads_aggregateFunc (func : GroupedSelect.AggregateFunc) :
    Reads (liftM (aggregateFunc (GroupedSelect.funcName func)) : Parser _) [] (fun _ => True)
      func := by
  intro rest memory _
  rw [aggregateFunc_name]
  rfl

theorem reads_column (ref : ColumnRef) :
    Reads (primary rules nested) (columnTokens ref) (Stops PRIMARY_LEVEL) (.column ref) := by
  obtain ⟨_ | table, name⟩ := ref
  · refine reads_advance (reads_peek_follows fun rest stops => ?_)
    have noCall := @Stops.not_head _ _ stops .lParen _ rfl le_rfl
    have noDot := @Stops.not_head _ _ stops .dot _ rfl le_rfl
    split
    case h_1 first => exact absurd first noCall
    case h_2 first => exact absurd first noDot
    case h_3 => exact Reads.pure _
  · refine reads_advance (reads_peek ?_)
    refine Reads.token_then (reads_expect .dot) ?_
    exact Reads.bind_end (reads_expectName name) (Reads.pure _)

theorem reads_aggregate (call : GroupedSelect.Aggregate) :
    Reads (primary rules nested) (aggregateTokens call) follows (.aggregate call) := by
  obtain ⟨func, arg⟩ := call
  refine reads_advance (reads_peek (Reads.bind_end ?_ (Reads.pure _)))
  refine Reads.nothing_then (reads_aggregateFunc func) (fun _ _ => trivial) ?_
  refine Reads.token_then (reads_expect .lParen) ?_
  have closed (arg : GroupedSelect.AggregateArg) :
      Reads (do
          expect rules .rParen
          pure { func, arg }) [Token.rParen] follows { func, arg : GroupedSelect.Aggregate } :=
    Reads.bind_end (reads_expect .rParen) (Reads.pure _)
  cases arg with
  | star =>
      refine Reads.token_then (reads_eatToken .star) ?_
      have star :
          Reads (pure GroupedSelect.AggregateArg.star : Parser _) [] (fun _ => True) .star :=
        Reads.pure _
      exact Reads.nothing_then star (fun _ _ => trivial) (closed .star)
  | column ref =>
      refine Reads.nothing_then (reads_eatToken_other .star) (fun rest _ => ?_) ?_
      · obtain ⟨_ | table, name⟩ := ref <;> simp [columnTokens]
      · exact Reads.bind ((reads_expectColumnRef ref).map GroupedSelect.AggregateArg.column)
          (fun rest _ => by simp) (closed (.column ref))

theorem reads_exists
    {subquery : Statement}
    (inner : Reads nested.statement subquery.tokens Closes subquery) :
    Reads (primary rules nested) (.keyword .exists_ :: .lParen :: (subquery.tokens ++ [.rParen]))
      follows (.exists_ subquery) := by
  refine reads_advance ?_
  refine Reads.token_then (reads_expect .lParen) ?_
  exact Reads.bind_end (reads_parenthesised inner closes_rParen) (Reads.pure _)

theorem reads_scalarSubquery
    {subquery : Statement}
    {rest : List Token}
    (selects : subquery.tokens = .keyword .select :: rest)
    (inner : Reads nested.statement subquery.tokens Closes subquery) :
    Reads (primary rules nested) (.lParen :: (subquery.tokens ++ [.rParen])) follows
      (.scalarSubquery subquery) := by
  refine reads_advance ?_
  rw [selects] at inner ⊢
  refine reads_peek ?_
  exact Reads.bind_end (reads_parenthesised inner closes_rParen) (Reads.pure _)

theorem reads_parens
    {expr : Expr}
    {level : Nat}
    (begins : Begins level expr.tokens)
    (inner : Reads nested.expr expr.tokens (Stops 0) expr) :
    Reads (primary rules nested) (.lParen :: expr.tokens ++ [.rParen]) follows expr := by
  obtain ⟨first, rest, shape⟩ := List.exists_cons_of_ne_nil begins.some
  have noSelect := begins.noSelect
  rw [shape, List.head?_cons, ne_eq, Option.some_inj] at noSelect
  rw [shape] at inner ⊢
  refine reads_advance (reads_peek ?_)
  split
  case h_1 same => exact absurd (Option.some_inj.mp same) noSelect
  case h_2 =>
    exact reads_parenthesised inner fun rest => stops_cons (by simp [Token.level])

end Primaries

theorem plain_selects {statement : Statement} (plain : statement.Plain) :
    ∃ rest, statement.tokens = .keyword .select :: rest := by
  cases statement with
  | select =>
      rw [Statement.tokens]
      exact ⟨_, rfl⟩
  | _ =>
      rw [Statement.Plain] at plain
      · exact plain.elim
      all_goals nofun

/-! ## Expressions -/

section Expressions

variable {rules rounds nested} {bound : Nat} {expr : Expr}

variable (rules rounds nested) in
/-- The expression is read at its own level, as a chain if its operator groups to the left. -/
structure Own (expr : Expr) : Prop where
  reads : ReadsAt rules rounds nested expr.level expr.tokens expr
  chained : Grouping expr.level → Chained rules rounds nested expr.level expr.tokens expr

theorem level_le (expr : Expr) : expr.level ≤ PRIMARY_LEVEL := by
  unfold Expr.level
  split <;> first | decide | exact Nat.le_refl _ | skip
  rename_i op _ _
  rcases op with (_ | _ | _ | _) | (_ | _ | _ | _ | _ | _) | (_ | _) <;> decide

/-- In its place, with parentheses where it needs them. -/
theorem readsAt_within
    (deeper : nested.Reads bound)
    (plain : expr.Plain)
    (short : expr.tokens.length < bound)
    (fits : bound + 2 ≤ rounds)
    (own : Own rules rounds nested expr)
    {place : Nat}
    (low : place ≤ PRIMARY_LEVEL) :
    ReadsAt rules rounds nested place (within place expr.level expr.tokens) expr := by
  have begins := tokens_begin expr plain
  unfold within
  split
  case isTrue =>
    have whole : Begins PRIMARY_LEVEL (.lParen :: expr.tokens ++ [.rParen]) :=
      begins_cons (by simp) (by simp) (by simp) (by simp)
    refine readsAt_down whole.some ?_ low le_rfl whole.starts fun _ _ =>
      reads_parens begins (deeper.expr expr plain short)
    simp only [List.cons_append, List.length_cons, List.length_append, List.length_nil]
    omega
  case isFalse tight =>
    exact readsAt_down begins.some (by omega) (Nat.le_of_not_lt tight) (level_le expr)
      begins.starts own.reads

theorem chained_within
    (deeper : nested.Reads bound)
    (plain : expr.Plain)
    (short : expr.tokens.length < bound)
    (fits : bound + 2 ≤ rounds)
    (own : Own rules rounds nested expr)
    {place : Nat}
    (grouping : Grouping place)
    (low : place < PRIMARY_LEVEL) :
    Chained rules rounds nested place (within place expr.level expr.tokens) expr := by
  by_cases same : expr.level = place
  · have bare : within place expr.level expr.tokens = expr.tokens := by
      unfold within
      rw [if_neg (by omega)]
    rw [bare]
    rw [← same] at grouping ⊢
    exact own.chained grouping
  · -- one level up the parentheses are the same
    have tighter : within place expr.level expr.tokens =
        within (place + 1) expr.level expr.tokens := by
      unfold within
      by_cases looser : expr.level < place
      · rw [if_pos looser, if_pos (by omega)]
      · rw [if_neg looser, if_neg (by omega)]
    rw [tighter]
    refine chained_operand ?_ (readsAt_within deeper plain short fits own low)
    unfold within
    split
    · simp only [List.cons_append, List.length_cons, List.length_append, List.length_nil]
      omega
    · omega

theorem length_within (place level : Nat) (tokens : List Token) :
    tokens.length ≤ (within place level tokens).length := by
  unfold within
  split
  · simp only [List.cons_append, List.length_cons, List.length_append]
    omega
  · exact le_rfl

theorem own_of_primary
    (tight : expr.level = PRIMARY_LEVEL)
    (reads : Reads (primary rules nested) expr.tokens (Stops PRIMARY_LEVEL) expr) :
    Own rules rounds nested expr := by
  refine ⟨?_, ?_⟩
  · rw [tight]
    exact fun _ _ => reads
  · rw [tight]
    exact fun grouping => absurd grouping (by simp [Grouping, PRIMARY_LEVEL])

theorem own_of_chained
    (grouping : Grouping expr.level)
    (fits : expr.tokens.length < rounds)
    (chained : Chained rules rounds nested expr.level expr.tokens expr) :
    Own rules rounds nested expr :=
  ⟨readsAt_of_chained grouping fits chained, fun _ => chained⟩

theorem own_negation
    (operand : ReadsAt rules rounds nested UNARY_LEVEL (within UNARY_LEVEL expr.level expr.tokens)
      expr) :
    Own rules rounds nested (.unary .neg expr) := by
  refine ⟨fun bound enough => ?_, fun grouping => ?_⟩
  · rw [Expr.tokens, List.length_cons] at enough
    obtain ⟨bound, rfl⟩ : ∃ less, bound = less + 1 := ⟨bound - 1, by omega⟩
    rw [Expr.tokens]
    refine Reads.token_then (reads_eatToken .minus) ?_
    exact Reads.bind_end (operand bound (Nat.lt_of_succ_lt_succ enough)) (Reads.pure _)
  · exact absurd grouping (by simp [Grouping, Expr.level, UNARY_LEVEL])

theorem own_not
    (operand : ReadsAt rules rounds nested NOT_LEVEL (within NOT_LEVEL expr.level expr.tokens)
      expr) :
    Own rules rounds nested (.unary .not expr) := by
  refine ⟨fun bound enough => ?_, fun grouping => ?_⟩
  · rw [Expr.tokens, List.length_cons] at enough
    obtain ⟨bound, rfl⟩ : ∃ less, bound = less + 1 := ⟨bound - 1, by omega⟩
    rw [Expr.tokens]
    refine Reads.token_then (reads_eatToken (.keyword .not)) ?_
    exact Reads.bind_end (operand bound (Nat.lt_of_succ_lt_succ enough)) (Reads.pure _)
  · exact absurd grouping (by simp [Grouping, Expr.level, NOT_LEVEL])

theorem own_isNull
    {negated : Bool}
    (operand : ReadsAt rules rounds nested PRIMARY_LEVEL
      (within PRIMARY_LEVEL expr.level expr.tokens) expr) :
    Own rules rounds nested (.isNull expr negated) := by
  refine ⟨fun bound _ => ?_, fun grouping => ?_⟩
  · have reads : Reads (primary rules nested) (within PRIMARY_LEVEL expr.level expr.tokens)
        (Stops PRIMARY_LEVEL) expr := operand _ (Nat.lt_succ_self _)
    have inside : POSTFIX_LEVEL < PRIMARY_LEVEL := by decide
    rw [Expr.tokens]
    refine Reads.bind reads (fun rest _ => stops_cons (by simp [Token.level, inside])) ?_
    refine Reads.token_then (reads_eatToken (.keyword .is)) ?_
    cases negated with
    | false =>
        refine Reads.nothing_then (reads_eatToken_other (.keyword .not)) (fun rest _ => by simp) ?_
        exact Reads.bind_end (reads_expectKeyword .null) (Reads.pure _)
    | true =>
        refine Reads.token_then (reads_eatToken (.keyword .not)) ?_
        exact Reads.bind_end (reads_expectKeyword .null) (Reads.pure _)
  · exact absurd grouping (by simp [Grouping, Expr.level, POSTFIX_LEVEL])

theorem own
    (deeper : nested.Reads bound)
    (fits : bound + 2 ≤ rounds) :
    (expr : Expr) → expr.Plain → expr.tokens.length ≤ bound → Own rules rounds nested expr
  | .null, _, _ | .integer _, _, _ | .real _, _, _ | .str _, _, _ | .bool true, _, _
  | .bool false, _, _ => by
      refine own_of_primary rfl ?_
      rw [Expr.tokens]
      exact reads_advance (Reads.pure _)
  | .column ref, _, _ => by
      refine own_of_primary rfl ?_
      rw [Expr.tokens]
      exact reads_column ref
  | .aggregate call, _, _ => by
      refine own_of_primary rfl ?_
      rw [Expr.tokens]
      exact reads_aggregate call
  | .exists_ subquery, plain, short => by
      rw [Expr.Plain] at plain
      refine own_of_primary rfl ?_
      rw [Expr.tokens] at short ⊢
      simp only [List.length_cons, List.length_append] at short
      exact reads_exists (deeper.statement subquery plain (by omega))
  | .scalarSubquery subquery, plain, short => by
      rw [Expr.Plain] at plain
      refine own_of_primary rfl ?_
      rw [Expr.tokens] at short ⊢
      simp only [List.length_cons, List.length_append] at short
      obtain ⟨rest, selects⟩ := plain_selects plain
      exact reads_scalarSubquery selects (deeper.statement subquery plain (by omega))
  | .unary .neg expr, plain, short => by
      rw [Expr.Plain] at plain
      rw [Expr.tokens, List.length_cons] at short
      have inner := length_within UNARY_LEVEL expr.level expr.tokens
      exact own_negation (readsAt_within deeper plain (by omega) fits
        (own deeper fits expr plain (by omega)) (by decide))
  | .unary .not expr, plain, short => by
      rw [Expr.Plain] at plain
      rw [Expr.tokens, List.length_cons] at short
      have inner := length_within NOT_LEVEL expr.level expr.tokens
      exact own_not (readsAt_within deeper plain (by omega) fits
        (own deeper fits expr plain (by omega)) (by decide))
  | .isNull expr negated, plain, short => by
      rw [Expr.Plain] at plain
      rw [Expr.tokens] at short
      have inner := length_within PRIMARY_LEVEL expr.level expr.tokens
      simp only [List.length_append, List.length_cons] at short
      exact own_isNull (readsAt_within deeper plain (by omega) fits
        (own deeper fits expr plain (by omega)) le_rfl)
  | .binary op left right, plain, short => by
      rw [Expr.Plain] at plain
      have whole := short
      rw [Expr.tokens] at short
      have leftInner := length_within (BinaryOp.level op) left.level left.tokens
      have rightInner := length_within (BinaryOp.level op + 1) right.level right.tokens
      simp only [List.length_append, List.length_cons] at short
      have grouping := grouping_binary op
      have low : BinaryOp.level op < PRIMARY_LEVEL := by
        unfold PRIMARY_LEVEL
        rcases grouping with level | level | level | level | level <;> omega
      have leftChained := chained_within deeper plain.1 (by omega) fits
        (own deeper fits left plain.1 (by omega)) grouping low
      have rightReads :
          ReadsAt rules rounds nested (BinaryOp.level op + 1)
            (within (BinaryOp.level op + 1) right.level right.tokens) right :=
        readsAt_within deeper plain.2 (by omega) fits (own deeper fits right plain.2 (by omega))
          (Nat.succ_le_of_lt low)
      refine own_of_chained grouping (by omega) ?_
      rw [Expr.tokens]
      refine chained_round (by simp) leftChained (fun rest => stops_cons ?_)
        (round_takes (rightReads rounds (by omega)))
      rw [level_binary]
      rintro _ ⟨⟩
      exact Nat.lt_succ_self _
  | .inSubquery expr subquery negated, plain, short => by
      rw [Expr.Plain] at plain
      have whole := short
      rw [Expr.tokens] at short
      have inner := length_within COMPARISON_LEVEL expr.level expr.tokens
      simp only [List.length_append, List.length_cons] at short
      have grouping : Grouping COMPARISON_LEVEL := .inr (.inr (.inl rfl))
      have chained := chained_within deeper plain.1 (by omega) fits
        (own deeper fits expr plain.1 (by omega)) grouping (by decide)
      refine own_of_chained grouping (by omega) ?_
      rw [Expr.tokens]
      refine chained_round (by simp) chained (fun rest => ?_)
        (round_membership (deeper.statement subquery plain.2 (by omega)))
      cases negated <;>
        exact stops_cons (by simp [Token.level, Expr.level, COMPARISON_LEVEL])

end Expressions

end PrehniteDB.Sql
