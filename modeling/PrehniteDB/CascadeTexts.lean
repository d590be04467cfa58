import PrehniteDB.SelectReading

namespace PrehniteDB.Sql

open ReadPaths (ForeignKeyAction)
open Sql.Parser
open TokenParser

/-!
# The statements of a cascade

The `DELETE` of a row writes the statements for the rows that refer to it as
texts, with the referenced value as a literal, and has them parsed.
-/

/-- A foreign key onto a table whose row goes. -/
structure Reference (rules : TextRules) where
  table : Identifier rules
  column : Identifier rules
  notNull : Bool
  onDelete : ForeignKeyAction
  parentPosition : Nat

/-- The text of a value; a quote is doubled. -/
def sqlLiteral : Value → List Char
  | .int number => (toString number.toInt).toList
  | .real bits => displayReal bits
  | .text string =>
      '\'' :: (string.toList.flatMap fun char => if char = '\'' then ['\'', '\''] else [char]) ++
        ['\'']
  | .bool true => "TRUE".toList
  | .bool false => "FALSE".toList
  | .null => "NULL".toList

variable {rules : TextRules}

def cascadeDelete (reference : Reference rules) (value : Value) : List Char :=
  "DELETE FROM ".toList ++ reference.table.name ++ " WHERE ".toList ++ reference.column.name ++
    " = ".toList ++ sqlLiteral value

def cascadeSetNull (reference : Reference rules) (value : Value) : List Char :=
  "UPDATE ".toList ++ reference.table.name ++ " SET ".toList ++ reference.column.name ++
    " = NULL WHERE ".toList ++ reference.column.name ++ " = ".toList ++ sqlLiteral value

/-! ## What a literal is parsed as -/

def signed (sign : Bool) (expr : Expr) : Expr := if sign then .unary .neg expr else expr

/-- Without a point the digits are those of an integer. -/
def magnitudeExpr (magnitude : UInt64) : Expr :=
  if magnitude = REAL_INFINITY then .column ⟨none, "inf"⟩
  else if (shortest magnitude).places = 0 then .integer (Int64.ofNat (shortest magnitude).number)
  else .real magnitude

def literalExpr : Value → Expr
  | .null => .null
  | .int number => signed (number < 0) (.integer (Int64.ofNat number.toInt.natAbs))
  | .real bits =>
      if realIsNaN bits then .column ⟨none, "NaN"⟩
      else
        signed (bits &&& 0x8000000000000000 ≠ 0) (magnitudeExpr (bits &&& 0x7FFFFFFFFFFFFFFF))
  | .text string => .str string
  | .bool truth => .bool truth

/-- The digits are those of a number beyond the `i64`s. -/
def largeMagnitude (magnitude : UInt64) : Prop :=
  magnitude ≠ REAL_INFINITY ∧ (shortest magnitude).places = 0 ∧
    2 ^ 63 ≤ (shortest magnitude).number

def TooLarge : Value → Prop
  | .int number => 2 ^ 63 ≤ number.toInt.natAbs
  | .real bits => realIsNaN bits = false ∧ largeMagnitude (bits &&& 0x7FFFFFFFFFFFFFFF)
  | _ => False

theorem tokens_signed {sign : Bool} {expr : Expr} (tight : expr.level = PRIMARY_LEVEL) :
    (signed sign expr).tokens = (if sign then [.minus] else []) ++ expr.tokens := by
  cases sign with
  | false => rfl
  | true =>
      unfold signed
      rw [if_pos rfl, Expr.tokens, tight]
      rfl

theorem magnitudeExpr_cases (magnitude : UInt64) :
    magnitudeExpr magnitude = .column ⟨none, "inf"⟩ ∨
      (∃ number, magnitudeExpr magnitude = .integer number) ∨
        ∃ bits, magnitudeExpr magnitude = .real bits := by
  by_cases infinite : magnitude = REAL_INFINITY
  · exact .inl (if_pos infinite)
  · right
    by_cases whole : (shortest magnitude).places = 0
    · exact .inl ⟨_, (if_neg infinite).trans (if_pos whole)⟩
    · exact .inr ⟨_, (if_neg infinite).trans (if_neg whole)⟩

theorem level_magnitudeExpr (magnitude : UInt64) :
    (magnitudeExpr magnitude).level = PRIMARY_LEVEL := by
  rcases magnitudeExpr_cases magnitude with shape | ⟨_, shape⟩ | ⟨_, shape⟩ <;>
    exact (congrArg Expr.level shape).trans rfl

theorem plain_magnitudeExpr (magnitude : UInt64) : (magnitudeExpr magnitude).Plain := by
  rcases magnitudeExpr_cases magnitude with shape | ⟨_, shape⟩ | ⟨_, shape⟩ <;>
    simp [shape, Expr.Plain]

theorem plain_signed {sign : Bool} {expr : Expr} (plain : expr.Plain) :
    (signed sign expr).Plain := by
  cases sign with
  | false => exact plain
  | true =>
      unfold signed
      rw [if_pos rfl, Expr.Plain]
      exact plain

theorem plain_literalExpr (value : Value) : (literalExpr value).Plain := by
  cases value with
  | int number => exact plain_signed (by simp [Expr.Plain])
  | real bits =>
      rw [literalExpr]
      split
      · simp [Expr.Plain]
      · exact plain_signed (plain_magnitudeExpr _)
  | null | text | bool => simp [literalExpr, Expr.Plain]

/-! ## Lexing the literal -/

/-- A sign before a text that starts with no sign. -/
theorem lexes_negative {text : List Char} {result : Except Error (List Token)}
    (other : text.head? ≠ some '-') (lexes : Lexes rules text result) :
    Lexes rules ('-' :: text) (result.map ([.minus] ++ ·)) := by
  have plain : ¬ ('-' = '-' ∧ text.head? = some '-') := fun comment => other comment.2
  have visible : rules.isWhitespace '-' = false :=
    rules.not_isWhitespace (by decide) (by decide)
  exact lexes_cons (lexNext_symbol visible plain rfl) le_rfl lexes

theorem head_toDigits (number : Nat) : (Nat.toDigits 10 number).head? ≠ some '-' := by
  obtain ⟨first, later, shape, digit⟩ := toDigits_cons number
  rw [shape, List.head?_cons, ne_eq, Option.some_inj]
  rintro rfl
  exact absurd digit (by decide)

theorem head_magnitude (magnitude : UInt64) :
    (displayMagnitude magnitude).head? ≠ some '-' ∧ displayMagnitude magnitude ≠ [] := by
  unfold displayMagnitude
  split
  case isTrue => decide
  case isFalse =>
    unfold Decimal.text
    split
    · exact ⟨head_toDigits _, Nat.toDigits_ne_nil⟩
    · refine ⟨?_, by simp⟩
      rw [List.head?_append_of_ne_nil _ Nat.toDigits_ne_nil]
      exact head_toDigits _

theorem spells_signed {sign : Bool} {text : List Char} {expr : Expr}
    (tight : expr.level = PRIMARY_LEVEL)
    (other : text.head? ≠ some '-')
    (nonempty : text ≠ [])
    (spells : Spells rules text expr.tokens) :
    Spells rules ((if sign then ['-'] else []) ++ text) (signed sign expr).tokens := by
  rw [tokens_signed tight]
  cases sign with
  | false => exact spells
  | true => exact spells.negated other nonempty

theorem spells_magnitude {magnitude : UInt64} (number : magnitude ≤ REAL_INFINITY)
    (fits : ¬ largeMagnitude magnitude) :
    Spells rules (displayMagnitude magnitude) (magnitudeExpr magnitude).tokens := by
  unfold displayMagnitude magnitudeExpr
  split
  case isTrue =>
    rw [Expr.tokens]
    exact spells_letters (by decide) (by decide)
  case isFalse apart =>
    have finite : magnitude < REAL_INFINITY := UInt64.lt_of_le_of_ne number apart
    split
    case isTrue whole =>
      have small : (shortest magnitude).number < 2 ^ 63 := by
        by_contra large
        exact fits ⟨apart, whole, Nat.le_of_not_lt large⟩
      unfold Decimal.text
      rw [if_pos whole, Expr.tokens]
      exact spells_integer small
    case isFalse some =>
      rw [Expr.tokens]
      exact spells_point finite some

theorem toString_toInt (number : Int64) :
    (toString number.toInt).toList =
      (if decide (number < 0) then ['-'] else []) ++ Nat.toDigits 10 number.toInt.natAbs := by
  have zero : (0 : Int64).toInt = 0 := rfl
  have sign : number < 0 ↔ number.toInt < 0 := by
    rw [Int64.lt_iff_toInt_lt, zero]
  simp only [decide_eq_true_eq, sign]
  cases number.toInt with
  | ofNat magnitude =>
      rw [if_neg (by simp)]
      change (Nat.repr magnitude).toList = _
      simp [Nat.repr]
  | negSucc less =>
      rw [if_pos (Int.negSucc_lt_zero less)]
      change ("-" ++ Nat.repr (less + 1)).toList = _
      simp [Nat.repr]

theorem magnitude_le {bits : UInt64} (number : realIsNaN bits = false) :
    bits &&& 0x7FFFFFFFFFFFFFFF ≤ REAL_INFINITY := by
  unfold realIsNaN at number
  exact UInt64.not_lt.mp (of_decide_eq_false number)

theorem spells_literal (value : Value) (fits : ¬ TooLarge value) :
    Spells rules (sqlLiteral value) (literalExpr value).tokens := by
  cases value with
  | null =>
      rw [literalExpr, Expr.tokens]
      exact spells_keyword .null
  | bool truth =>
      cases truth
      · rw [literalExpr, Expr.tokens]
        exact spells_keyword .false
      · rw [literalExpr, Expr.tokens]
        exact spells_keyword .true
  | text string =>
      have spells := @spells_string rules string.toList
      rw [String.ofList_toList] at spells
      rw [literalExpr, Expr.tokens]
      exact spells
  | int number =>
      have spells := @spells_integer rules _ (Nat.lt_of_not_le fits)
      rw [sqlLiteral, toString_toInt]
      refine spells_signed rfl (head_toDigits _) Nat.toDigits_ne_nil ?_
      rw [Expr.tokens]
      exact spells
  | real bits =>
      rw [sqlLiteral, literalExpr, displayReal]
      split
      case isTrue =>
        rw [Expr.tokens]
        exact spells_letters (by decide) (by decide)
      case isFalse apart =>
        have number : realIsNaN bits = false := Bool.not_eq_true _ ▸ apart
        have spells := @spells_magnitude rules _ (magnitude_le number) fun large =>
          fits ⟨number, large⟩
        have head := head_magnitude (bits &&& 0x7FFFFFFFFFFFFFFF)
        have signs := @spells_signed rules (bits &&& 0x8000000000000000 ≠ 0) _ _
          (level_magnitudeExpr _) head.1 head.2 spells
        simpa only [decide_eq_true_eq] using signs

theorem lexes_signed_error {sign : Bool} {text : List Char} {error : Error}
    (other : text.head? ≠ some '-') (lexes : Lexes rules text (.error error)) :
    Lexes rules ((if sign then ['-'] else []) ++ text) (.error error) := by
  cases sign with
  | false => exact lexes
  | true => exact lexes_negative other lexes

/-- The digits of a larger number are no literal. -/
theorem lexes_tooLarge {value : Value} (large : TooLarge value) :
    ∃ error, Lexes rules (sqlLiteral value) (.error error) := by
  cases value with
  | null | bool | text => exact large.elim
  | int number =>
      obtain ⟨error, lexes⟩ := @lexes_large rules _ large
      refine ⟨error, ?_⟩
      rw [sqlLiteral, toString_toInt]
      exact lexes_signed_error (head_toDigits _) lexes
  | real bits =>
      obtain ⟨number, apart, whole, digits⟩ := large
      obtain ⟨error, lexes⟩ := @lexes_large rules _ digits
      refine ⟨error, ?_⟩
      have text : displayMagnitude (bits &&& 0x7FFFFFFFFFFFFFFF) =
          Nat.toDigits 10 (shortest (bits &&& 0x7FFFFFFFFFFFFFFF)).number := by
        unfold displayMagnitude Decimal.text
        rw [if_neg apart, if_pos whole]
      rw [sqlLiteral, displayReal, number, if_neg Bool.false_ne_true, text]
      have signs := @lexes_signed_error rules (bits &&& 0x8000000000000000 ≠ 0) _ _
        (head_toDigits _) lexes
      simpa only [decide_eq_true_eq] using signs

/-! ## Lexing the statements -/

/-- `column = literal`. -/
def equation (column : String) (value : Value) : Expr :=
  .binary (.comparison .eq) (.column ⟨none, column⟩) (literalExpr value)

theorem level_literalExpr (value : Value) : UNARY_LEVEL ≤ (literalExpr value).level := by
  have signs (sign : Bool) {expr : Expr} (tight : expr.level = PRIMARY_LEVEL) :
      UNARY_LEVEL ≤ (signed sign expr).level := by
    cases sign with
    | false =>
        have same : (signed false expr).level = PRIMARY_LEVEL := tight
        rw [same]
        decide
    | true => exact le_rfl
  cases value with
  | int number => exact signs _ rfl
  | real bits =>
      rw [literalExpr]
      split
      · exact Nat.le_of_lt (by decide)
      · exact signs _ (level_magnitudeExpr _)
  | null => exact Nat.le_of_lt (by decide)
  | text string => exact signs false rfl
  | bool truth => exact signs false rfl

theorem tokens_equation (column : String) (value : Value) :
    (equation column value).tokens = .ident column :: .eq :: (literalExpr value).tokens := by
  have tight := level_literalExpr value
  have bare (place : Nat) (low : place ≤ UNARY_LEVEL) :
      within place (literalExpr value).level (literalExpr value).tokens =
        (literalExpr value).tokens :=
    if_neg (Nat.not_lt.mpr (low.trans tight))
  unfold equation
  rw [Expr.tokens, Expr.tokens, bare _ (by decide)]
  rfl

theorem plain_equation (column : String) (value : Value) : (equation column value).Plain := by
  unfold equation
  rw [Expr.Plain, Expr.Plain]
  exact ⟨trivial, plain_literalExpr value⟩

def deleteTokens (reference : Reference rules) : List Token :=
  [.keyword .delete, .keyword .from_, .ident (String.ofList reference.table.name),
    .keyword .where_, .ident (String.ofList reference.column.name), .eq]

def updateTokens (reference : Reference rules) : List Token :=
  [.keyword .update, .ident (String.ofList reference.table.name), .keyword .set,
    .ident (String.ofList reference.column.name), .eq, .keyword .null, .keyword .where_,
    .ident (String.ofList reference.column.name), .eq]

theorem spells_eq : Spells rules ['='] [.eq] := spells_symbol (by decide) rfl

theorem lexes_cascadeDelete (reference : Reference rules) {value : Value}
    {result : Except Error (List Token)} (lexes : Lexes rules (sqlLiteral value) result) :
    Lexes rules (cascadeDelete reference value)
      (result.map (deleteTokens reference ++ ·)) := by
  have start := (@spells_keyword rules .delete).spaced (spells_keyword .from_)
  have named := start.spaced reference.table.spells
  have filtered := (named.spaced (spells_keyword .where_)).spaced reference.column.spells
  have whole := (filtered.spaced spells_eq).before lexes
  have first : "DELETE FROM ".toList =
      Keyword.delete.spelling ++ ' ' :: (Keyword.from_.spelling ++ [' ']) := by decide
  have second : " WHERE ".toList = ' ' :: (Keyword.where_.spelling ++ [' ']) := by decide
  have third : " = ".toList = [' ', '=', ' '] := by decide
  unfold cascadeDelete
  rw [first, second, third]
  simp only [List.append_assoc, List.cons_append, List.nil_append] at whole ⊢
  exact whole

theorem lexes_cascadeSetNull (reference : Reference rules) {value : Value}
    {result : Except Error (List Token)} (lexes : Lexes rules (sqlLiteral value) result) :
    Lexes rules (cascadeSetNull reference value)
      (result.map (updateTokens reference ++ ·)) := by
  have start := (@spells_keyword rules .update).spaced reference.table.spells
  have assigned := ((start.spaced (spells_keyword .set)).spaced reference.column.spells).spaced
    (spells_eq.spaced (spells_keyword .null))
  have filtered := (assigned.spaced (spells_keyword .where_)).spaced reference.column.spells
  have whole := (filtered.spaced spells_eq).before lexes
  have first : "UPDATE ".toList = Keyword.update.spelling ++ [' '] := by decide
  have second : " SET ".toList = ' ' :: (Keyword.set.spelling ++ [' ']) := by decide
  have third : " = NULL WHERE ".toList =
      ' ' :: '=' :: ' ' ::
        (Keyword.null.spelling ++ ' ' :: (Keyword.where_.spelling ++ [' '])) := by
    decide
  have fourth : " = ".toList = [' ', '=', ' '] := by decide
  unfold cascadeSetNull
  rw [first, second, third, fourth]
  simp only [List.append_assoc, List.cons_append, List.nil_append] at whole ⊢
  exact whole

/-! ## Parsing the statements -/

section Statements

variable {rounds : Nat} {nested : Nested} {bound : Nat}

theorem reads_delete
    (deeper : nested.Reads bound)
    (fits : bound + 2 ≤ rounds)
    (table : String)
    {filter : Option Expr}
    (plain : plainOption filter)
    (short : (clauseTokens .where_ filter).length ≤ bound) :
    Reads (delete rules rounds nested)
      (.keyword .delete :: .keyword .from_ :: .ident table :: clauseTokens .where_ filter)
      (From 4) (.delete table filter) := by
  refine Reads.token_then (reads_expectKeyword .delete) ?_
  refine Reads.token_then (reads_expectKeyword .from_) ?_
  refine Reads.token_then (reads_expectName table) ?_
  exact Reads.bind_end (reads_clause deeper fits .where_ plain short) (Reads.pure _)

def assignmentTokens (assignment : String × Expr) : List Token :=
  .ident assignment.1 :: .eq :: assignment.2.tokens

theorem reads_assignment
    (deeper : nested.Reads bound)
    (fits : bound + 2 ≤ rounds)
    {assignment : String × Expr}
    (plain : assignment.2.Plain)
    (short : assignment.2.tokens.length ≤ bound) :
    Reads (Parser.assignment rules rounds nested) (assignmentTokens assignment) (From 1)
      assignment := by
  refine Reads.token_then (reads_expectName assignment.1) ?_
  refine Reads.token_then (reads_expect .eq) ?_
  have read : Reads (Parser.expr rules rounds nested) assignment.2.tokens (Stops 0) assignment.2 :=
    reads_expr deeper fits plain short
  exact Reads.bind_end (read.mono fun rest starts => starts.stops 0) (Reads.pure _)

theorem reads_update
    (deeper : nested.Reads bound)
    (fits : bound + 2 ≤ rounds)
    (table : String)
    {assignments : List (String × Expr)}
    (some : assignments ≠ [])
    (plainValues : ∀ assignment ∈ assignments, assignment.2.Plain)
    {filter : Option Expr}
    (plain : plainOption filter)
    (short :
      (commaTokens (assignments.map assignmentTokens)).length +
          (clauseTokens .where_ filter).length ≤ bound) :
    Reads (update rules rounds nested)
      (.keyword .update :: .ident table :: .keyword .set ::
        (commaTokens (assignments.map assignmentTokens) ++ clauseTokens .where_ filter))
      (From 4) (.update table assignments filter) := by
  refine Reads.token_then (reads_expectKeyword .update) ?_
  refine Reads.token_then (reads_expectName table) ?_
  refine Reads.token_then (reads_expectKeyword .set) ?_
  have each (assignment : String × Expr) (listed : assignment ∈ assignments) :
      Reads (Parser.assignment rules rounds nested) (assignmentTokens assignment) (From 1)
        assignment := by
    have length := length_le_commaTokens (List.mem_map_of_mem (f := assignmentTokens) listed)
    have own : (assignmentTokens assignment).length = assignment.2.tokens.length + 2 := rfl
    exact reads_assignment deeper fits (plainValues assignment listed) (by omega)
  have list : Reads (commaList rounds (Parser.assignment rules rounds nested))
      (commaTokens (assignments.map assignmentTokens)) (From 3) assignments :=
    reads_commaList some each (fun _ _ => List.cons_ne_nil _ _)
      (fun rest starts => ⟨starts.mono (by decide), starts.not_head (by decide)⟩) (by omega)
  refine Reads.bind list (fun rest starts => ?_) ?_
  · exact from_clauseTokens .where_ le_rfl filter (starts.mono (by decide))
  · exact Reads.bind_end (reads_clause deeper fits .where_ plain (by omega)) (Reads.pure _)

theorem wholeStatement_reads
    {tokens : List Token}
    {statement : Statement}
    (reads : Reads nested.statement tokens (From 4) statement)
    (memory : Nat) :
    wholeStatement rules nested { tokens, memory } = .ok (statement, { tokens := [], memory }) := by
  have ends : Reads (wholeStatement rules nested) tokens (fun rest => rest = []) statement := by
    refine Reads.bind_end (reads.mono ?_) (Reads.bind_end (reads_eatToken_none ?_) ?_)
    · rintro _ rfl
      simp [From]
    · rintro _ rfl
      simp
    · refine reads_peek_follows ?_
      rintro _ rfl
      exact Reads.pure statement
  have read := ends [] memory rfl
  rw [List.append_nil] at read
  exact read

theorem parseWithin_reads
    {depth : Nat}
    {input : List Char}
    {tokens : List Token}
    {statement : Statement}
    (lexes : Lexes rules input (.ok tokens))
    (reads : Reads (grammar rules depth depth).statement tokens (From 4) statement) :
    parseWithin rules depth (String.ofList input) = .ok statement := by
  rw [← String.toList_ofList (l := input)] at lexes
  unfold parseWithin
  rw [tokenize_eq lexes]
  change (wholeStatement rules (grammar rules depth depth) { tokens, memory := 0 } >>= fun pair =>
    pure pair.1) = _
  rw [wholeStatement_reads reads]
  rfl

theorem parseWithin_error
    {input : List Char}
    {error : Error}
    (depth : Nat)
    (lexes : Lexes rules input (.error error)) :
    parseWithin rules depth (String.ofList input) = .error error := by
  rw [← String.toList_ofList (l := input)] at lexes
  unfold parseWithin
  rw [tokenize_eq lexes]
  rfl

end Statements

section Commands

variable (reference : Reference rules) {value : Value} {depth : Nat}

theorem length_literal (value : Value) : (literalExpr value).tokens.length ≤ 2 := by
  have signs (sign : Bool) {expr : Expr} (tight : expr.level = PRIMARY_LEVEL)
      (single : expr.tokens.length = 1) : (signed sign expr).tokens.length ≤ 2 := by
    rw [tokens_signed tight, List.length_append, single]
    cases sign <;> decide
  have single (magnitude : UInt64) : (magnitudeExpr magnitude).tokens.length = 1 := by
    rcases magnitudeExpr_cases magnitude with shape | ⟨_, shape⟩ | ⟨_, shape⟩ <;>
      simp [shape, Expr.tokens, columnTokens]
  cases value with
  | int number => exact signs _ rfl (by rw [Expr.tokens]; rfl)
  | real bits =>
      rw [literalExpr]
      split
      · rw [Expr.tokens]
        exact Nat.le_succ 1
      · exact signs _ (level_magnitudeExpr _) (single _)
  | null | text | bool =>
      rw [literalExpr, Expr.tokens]
      exact Nat.le_succ 1

theorem clauseTokens_equation (column : String) (value : Value) :
    clauseTokens .where_ (some (equation column value)) =
      .keyword .where_ :: .ident column :: .eq :: (literalExpr value).tokens := by
  rw [clauseTokens, tokens_equation]

theorem plainOption_equation (column : String) (value : Value) :
    plainOption (some (equation column value)) := by
  rw [plainOption]
  exact plain_equation column value

theorem parse_cascadeDelete (fits : ¬ TooLarge value) (deep : 10 ≤ depth) :
    parseWithin rules depth (String.ofList (cascadeDelete reference value)) =
      .ok (.delete (String.ofList reference.table.name)
        (some (equation (String.ofList reference.column.name) value))) := by
  obtain ⟨depth, rfl⟩ : ∃ less, depth = less + 1 := ⟨depth - 1, by omega⟩
  have lexes := lexes_cascadeDelete reference (spells_literal value fits).lexes
  have deeper := grammar_reads rules (depth + 1) 8 depth (by omega) (by omega)
  have filter := clauseTokens_equation (String.ofList reference.column.name) value
  have short : (clauseTokens .where_
      (some (equation (String.ofList reference.column.name) value))).length ≤ 8 := by
    have literal := length_literal value
    rw [filter]
    simp only [List.length_cons]
    omega
  have read := @reads_delete rules _ _ _ deeper (by omega) (String.ofList reference.table.name) _
    (plainOption_equation _ _) short
  rw [filter] at read
  exact parseWithin_reads lexes (reads_peek read)

theorem parse_cascadeSetNull (fits : ¬ TooLarge value) (deep : 10 ≤ depth) :
    parseWithin rules depth (String.ofList (cascadeSetNull reference value)) =
      .ok (.update (String.ofList reference.table.name)
        [(String.ofList reference.column.name, .null)]
        (some (equation (String.ofList reference.column.name) value))) := by
  obtain ⟨depth, rfl⟩ : ∃ less, depth = less + 1 := ⟨depth - 1, by omega⟩
  have lexes := lexes_cascadeSetNull reference (spells_literal value fits).lexes
  have deeper := grammar_reads rules (depth + 1) 8 depth (by omega) (by omega)
  have filter := clauseTokens_equation (String.ofList reference.column.name) value
  have assigned :
      commaTokens ([(String.ofList reference.column.name, Expr.null)].map assignmentTokens) =
        [.ident (String.ofList reference.column.name), .eq, .keyword .null] := by
    simp [commaTokens, assignmentTokens, Expr.tokens]
  have short :
      (commaTokens ([(String.ofList reference.column.name, Expr.null)].map
          assignmentTokens)).length +
        (clauseTokens .where_
          (some (equation (String.ofList reference.column.name) value))).length ≤ 8 := by
    have literal := length_literal value
    rw [filter, assigned]
    simp only [List.length_cons, List.length_nil]
    omega
  have read := @reads_update rules _ _ _ deeper (by omega) (String.ofList reference.table.name)
    _ (List.cons_ne_nil _ _) (by simp [Expr.Plain]) _ (plainOption_equation _ _) short
  rw [filter, assigned] at read
  exact parseWithin_reads lexes (reads_peek read)

theorem parse_tooLarge (large : TooLarge value) (depth : Nat) :
    ∃ error,
      parseWithin rules depth (String.ofList (cascadeDelete reference value)) = .error error := by
  obtain ⟨error, lexes⟩ := @lexes_tooLarge rules value large
  exact ⟨error, parseWithin_error depth (lexes_cascadeDelete reference lexes)⟩

end Commands

end PrehniteDB.Sql
