import PrehniteDB.SqlSyntax
import PrehniteDB.TokenTexts

namespace PrehniteDB.Sql

open AccessPaths (OrderKey)
open GroupedSelect (Aggregate AggregateArg AggregateFunc funcName)
open ReadPaths (JoinKind)

/-!
# Expressions as text

An expression, and a `SELECT` in it, as tokens: an operand is put in parentheses
where it binds looser than its place asks for.  Blanks stand between the texts of
the tokens.
-/

/-! ## Tokens -/

/-- The word as the lexer knows it. -/
def Keyword.spelling (keyword : Keyword) : List Char :=
  ((words.find? fun entry => entry.2 = keyword).map fun entry => entry.1.toList).getD []

/-- More than any finite real. -/
def infinityDigits : List Char := '1' :: List.replicate 309 '0'

/-- A real literal has a point. -/
def realText (bits : UInt64) : List Char :=
  if bits = REAL_INFINITY then infinityDigits ++ ['.', '0']
  else if '.' ∈ displayReal bits then displayReal bits
  else displayReal bits ++ ['.', '0']

/-- A token as it is written. -/
def Token.text : Token → List Char
  | .integer number => Nat.toDigits 10 number.toInt.toNat
  | .real bits => realText bits
  | .str string => quoted string.toList
  | .ident name => name.toList
  | .keyword word => word.spelling
  | .comma => [',']
  | .dot => ['.']
  | .semicolon => [';']
  | .lParen => ['(']
  | .rParen => [')']
  | .star => ['*']
  | .plus => ['+']
  | .minus => ['-']
  | .slash => ['/']
  | .eq => ['=']
  | .notEq => ['<', '>']
  | .lt => ['<']
  | .ltEq => ['<', '=']
  | .gt => ['>']
  | .gtEq => ['>', '=']
  | .question => ['?']

/-- One blank between each two. -/
def spaced : List Token → List Char
  | [] => []
  | [token] => token.text
  | token :: rest => token.text ++ ' ' :: spaced rest

/-! ## Precedence -/

def ArithmeticOp.token : ArithmeticOp → Token
  | .add => .plus
  | .sub => .minus
  | .mul => .star
  | .div => .slash

def ComparisonOp.token : ComparisonOp → Token
  | .eq => .eq
  | .notEq => .notEq
  | .lt => .lt
  | .ltEq => .ltEq
  | .gt => .gt
  | .gtEq => .gtEq

/-- The operator between its operands. -/
def BinaryOp.token : BinaryOp → Token
  | .logic .or => .keyword .or
  | .logic .and => .keyword .and
  | .comparison op => ComparisonOp.token op
  | .arithmetic op => ArithmeticOp.token op

/-- From the loosest to the tightest. -/
def BinaryOp.level : BinaryOp → Nat
  | .logic .or => 0
  | .logic .and => 1
  | .comparison _ => 3
  | .arithmetic .add | .arithmetic .sub => 4
  | .arithmetic .mul | .arithmetic .div => 5

def NOT_LEVEL : Nat := 2
def COMPARISON_LEVEL : Nat := 3
def UNARY_LEVEL : Nat := 6
def POSTFIX_LEVEL : Nat := 7
def PRIMARY_LEVEL : Nat := 8

/-- How tightly the outermost construct binds. -/
def Expr.level : Expr → Nat
  | .binary op _ _ => BinaryOp.level op
  | .unary .not _ => NOT_LEVEL
  | .inSubquery _ _ _ => COMPARISON_LEVEL
  | .unary .neg _ => UNARY_LEVEL
  | .isNull _ _ => POSTFIX_LEVEL
  | _ => PRIMARY_LEVEL

/-- An operand that binds looser than its place needs parentheses. -/
def within (place level : Nat) (tokens : List Token) : List Token :=
  if level < place then .lParen :: tokens ++ [.rParen] else tokens

/-! ## Rendering -/

/-- A reference, qualified or not. -/
def columnTokens : ColumnRef → List Token
  | ⟨none, name⟩ => [.ident name]
  | ⟨some table, name⟩ => [.ident table, .dot, .ident name]

def aggregateTokens (call : Aggregate) : List Token :=
  .ident (funcName call.func) :: .lParen ::
    (match call.arg with
      | .star => [.star]
      | .column ref => columnTokens ref) ++ [.rParen]

/-- Lists of tokens with commas between them. -/
def commaTokens : List (List Token) → List Token
  | [] => []
  | [tokens] => tokens
  | tokens :: rest => tokens ++ .comma :: commaTokens rest

/-- A table and its alias. -/
def tableTokens (table : TableRef) : List Token :=
  .ident table.name ::
    match table.tableAlias with
    | some name => [.keyword .as, .ident name]
    | none => []

def joinTokens : JoinKind → List Token
  | .inner => [.keyword .join]
  | .left => [.keyword .left, .keyword .join]
  | .cross => [.keyword .cross, .keyword .join]
  | .semi | .anti => []

def groupTokens (groupBy : List ColumnRef) : List Token :=
  if groupBy = [] then []
  else .keyword .group :: .keyword .by_ :: commaTokens (groupBy.map columnTokens)

def orderKeyTokens (key : OrderKey) : List Token :=
  columnTokens key.column ++ if key.descending then [.keyword .desc] else []

def orderTokens (orderBy : List OrderKey) : List Token :=
  if orderBy = [] then []
  else .keyword .order :: .keyword .by_ :: commaTokens (orderBy.map orderKeyTokens)

def countToken (count : UInt64) : Token := .integer (Int64.ofNat count.toNat)

/-- `LIMIT`, and `OFFSET` behind it. -/
def limitTokens (limit offset : Option UInt64) : List Token :=
  (match limit with
    | some count => [.keyword .limit, countToken count]
    | none => []) ++
    match offset with
    | some count => [.keyword .offset, countToken count]
    | none => []

mutual

/-- Only what the parser can yield without a `?` has tokens. -/
def Expr.tokens : Expr → List Token
  | .null => [.keyword .null]
  | .integer number => [.integer number]
  | .real bits => [.real bits]
  | .str string => [.str string]
  | .bool truth => [.keyword (if truth then .true else .false)]
  | .column ref => columnTokens ref
  | .aggregate call => aggregateTokens call
  | .unary .neg expr => .minus :: within UNARY_LEVEL expr.level expr.tokens
  | .unary .not expr => .keyword .not :: within NOT_LEVEL expr.level expr.tokens
  | .binary op left right =>
      within (BinaryOp.level op) left.level left.tokens ++
        BinaryOp.token op :: within (BinaryOp.level op + 1) right.level right.tokens
  | .isNull expr negated =>
      within PRIMARY_LEVEL expr.level expr.tokens ++
        .keyword .is :: ((if negated then [.keyword .not] else []) ++ [.keyword .null])
  | .inSubquery expr subquery negated =>
      within COMPARISON_LEVEL expr.level expr.tokens ++
        ((if negated then [.keyword .not] else []) ++
          .keyword .in_ :: .lParen :: (subquery.tokens ++ [.rParen]))
  | .exists_ subquery => .keyword .exists_ :: .lParen :: (subquery.tokens ++ [.rParen])
  | .scalarSubquery subquery => .lParen :: (subquery.tokens ++ [.rParen])
  | _ => []

/-- A clause of one predicate, where there is one. -/
def clauseTokens (word : Keyword) : Option Expr → List Token
  | none => []
  | some predicate => .keyword word :: predicate.tokens

def Join.tokens : Join Expr → List Token
  | ⟨kind, table, on⟩ => joinTokens kind ++ tableTokens table ++ clauseTokens .on on

def tokensOfJoins : List (Join Expr) → List Token
  | [] => []
  | join :: rest => Join.tokens join ++ tokensOfJoins rest

def FromClause.tokens : FromClause Expr → List Token
  | ⟨table, joins⟩ => tableTokens table ++ tokensOfJoins joins

def SelectItem.tokens : SelectItem → List Token
  | .column ref => columnTokens ref
  | .aggregate call => aggregateTokens call
  | .expr expr => expr.tokens

def tokensOfItems : List SelectItem → List (List Token)
  | [] => []
  | item :: rest => item.tokens :: tokensOfItems rest

def Projection.tokens : Projection → List Token
  | .all => [.star]
  | .items items => commaTokens (tokensOfItems items)

/-- A `SELECT` in tokens; no other statement nests. -/
def Statement.tokens : Statement → List Token
  | .select source projection filter groupBy having orderBy limit offset =>
      .keyword .select :: (projection.tokens ++
        .keyword .from_ :: (FromClause.tokens source ++ (clauseTokens .where_ filter ++
          (groupTokens groupBy ++ (clauseTokens .having having ++
            (orderTokens orderBy ++ limitTokens limit offset))))))
  | _ => []

end

/-! ## What can be written -/

variable (rules : TextRules)

/-- A word that is no keyword. -/
def IsName (name : String) : Prop :=
  ∃ identifier : Identifier rules, identifier.name = name.toList

/-- Literals are not negative, and no real is a NaN. -/
def Token.Written : Token → Prop
  | .integer number => 0 ≤ number
  | .real bits => bits ≤ REAL_INFINITY
  | .ident name => IsName rules name
  | _ => True

/-- Counts that the lexer reads back. -/
def countsPlain : Option UInt64 → Option UInt64 → Prop
  | none, none => True
  | some limit, none => limit < 0x8000000000000000
  | some limit, some offset => limit < 0x8000000000000000 ∧ offset < 0x8000000000000000
  | none, some _ => False

/-- A bare column and an aggregate are items of their own. -/
def isExprItem : Expr → Prop
  | .column _ | .aggregate _ => False
  | _ => True

mutual

/-- An expression of the grammar, without a placeholder. -/
def Expr.Plain : Expr → Prop
  | .unary _ expr => expr.Plain
  | .binary _ left right => left.Plain ∧ right.Plain
  | .isNull expr _ => expr.Plain
  | .inSubquery expr subquery _ => expr.Plain ∧ subquery.Plain
  | .exists_ subquery => subquery.Plain
  | .scalarSubquery subquery => subquery.Plain
  | .null | .integer _ | .real _ | .str _ | .bool _ | .column _ | .aggregate _ => True
  | _ => False

def plainOption : Option Expr → Prop
  | none => True
  | some expr => expr.Plain

/-- Only a `CROSS JOIN` has no `ON`. -/
def Join.Plain : Join Expr → Prop
  | ⟨.inner, _, some on⟩ | ⟨.left, _, some on⟩ => on.Plain
  | ⟨.cross, _, none⟩ => True
  | _ => False

def plainJoins : List (Join Expr) → Prop
  | [] => True
  | join :: rest => Join.Plain join ∧ plainJoins rest

def FromClause.Plain : FromClause Expr → Prop
  | ⟨_, joins⟩ => plainJoins joins

def SelectItem.Plain : SelectItem → Prop
  | .column _ | .aggregate _ => True
  | .expr expr => expr.Plain ∧ isExprItem expr

def plainSelection : List SelectItem → Prop
  | [] => True
  | item :: rest => item.Plain ∧ plainSelection rest

/-- A projection the grammar can write. -/
def Projection.Plain : Projection → Prop
  | .all => True
  | .items items => items ≠ [] ∧ plainSelection items

/-- A `SELECT`. -/
def Statement.Plain : Statement → Prop
  | .select source projection filter _ having _ limit offset =>
      FromClause.Plain source ∧ projection.Plain ∧ plainOption filter ∧ plainOption having ∧
        countsPlain limit offset
  | _ => False

end

/-- The expression can be written down, with all its names and literals. -/
structure Expr.Written (expr : Expr) : Prop where
  plain : expr.Plain
  leaves : ∀ token ∈ expr.tokens, Token.Written rules token

variable {rules}

/-! ## Lexing the text -/

theorem spells_letters {word : List Char} (some : word ≠ [])
    (letters : (word.all Char.isAlpha) = true) :
    Spells rules word [lexWord word] := by
  obtain ⟨first, rest, rfl⟩ := List.exists_cons_of_ne_nil some
  rw [List.all_eq_true] at letters
  have alphabetic : ∀ char ∈ first :: rest, rules.isAlphabetic char = true := by
    intro char listed
    have letter := letters char listed
    have ascii : char.toNat < 128 := by
      have upper : 'Z'.val.toNat = 90 := rfl
      have lower : 'z'.val.toNat = 122 := rfl
      have number : char.val.toNat = char.toNat := rfl
      simp only [Char.isAlpha, Char.isUpper, Char.isLower, Bool.or_eq_true, Bool.and_eq_true,
        decide_eq_true_eq, ge_iff_le, UInt32.le_iff_toNat_le] at letter
      omega
    rw [rules.alphabetic_ascii char ascii, letter]
  have starts : rules.startsWord first = true := by
    simp [TextRules.startsWord, alphabetic first List.mem_cons_self]
  have continues : ∀ char ∈ first :: rest, rules.continuesWord char = true := by
    intro char listed
    simp [TextRules.continuesWord, alphabetic char listed]
  exact spells_word starts continues

theorem spells_keyword (keyword : Keyword) :
    Spells rules keyword.spelling [.keyword keyword] := by
  have word :
      keyword.spelling ≠ [] ∧ (keyword.spelling.all Char.isAlpha) = true ∧
        Keyword.fromWord keyword.spelling = some keyword := by
    cases keyword <;> decide
  obtain ⟨some, letters, known⟩ := word
  have spells := @spells_letters rules _ some letters
  rw [lexWord, known] at spells
  exact spells

theorem spells_comparison
    {char : Char}
    {later : List Char}
    {token : Token}
    (visible : 32 < char.toNat ∧ char.toNat < 128 ∧ char ≠ '-')
    (other : symbol char = none)
    (compared : ∀ rest, Apart rest →
      lexComparison (char :: (later ++ rest)) = some (.ok (token, rest))) :
    Spells rules (char :: later) [token] := by
  refine spells_token fun rest apart => ?_
  have plain : ¬ (char = '-' ∧ (later ++ rest).head? = some '-') := fun comment =>
    visible.2.2 comment.1
  rw [lexNext_visible (rules.not_isWhitespace visible.1 visible.2.1) plain, other,
    compared rest apart]
  rfl

/-- One character that no longer comparison starts with here. -/
theorem lexComparison_apart
    {char : Char}
    {token : Token}
    (alone : lexComparison [char] = some (.ok (token, [])))
    (blank : ∀ rest, lexComparison (char :: ' ' :: rest) = some (.ok (token, ' ' :: rest)))
    (rest : List Char)
    (apart : Apart rest) :
    lexComparison (char :: ([] ++ rest)) = some (.ok (token, rest)) := by
  cases rest with
  | nil => exact alone
  | cons first rest =>
      obtain rfl := apart first rfl
      exact blank rest

theorem spells_infinity :
    Spells rules (infinityDigits ++ ['.', '0']) [.real REAL_INFINITY] := by
  have read : parseReal (infinityDigits ++ ['.', '0']) = REAL_INFINITY := by decide +kernel
  have digits : ∀ char ∈ infinityDigits, char.isDigit = true := by
    intro char listed
    rcases List.mem_cons.mp listed with rfl | zero
    · decide
    · rw [List.eq_of_mem_replicate zero]
      decide
  have spells := @spells_real rules infinityDigits ['0'] (List.cons_ne_nil _ _) digits
    (by simp) (List.forall_mem_singleton.mpr rfl)
  rw [read] at spells
  exact spells

theorem spells_point {magnitude : UInt64} (finite : magnitude < REAL_INFINITY)
    (some : (shortest magnitude).places ≠ 0) :
    Spells rules (shortest magnitude).text [.real magnitude] := by
  have parsed := Decimal.parseReal_text (shortest magnitude)
  rw [shortest_bits (UInt64.lt_iff_toNat_lt.mp finite)] at parsed
  have text :
      (shortest magnitude).text =
        Nat.toDigits 10 ((shortest magnitude).number / 10 ^ (shortest magnitude).places) ++
          '.' :: (shortest magnitude).fraction := by
    unfold Decimal.text
    rw [if_neg some]
    rfl
  have nonempty : (shortest magnitude).fraction ≠ [] := by
    intro empty
    have length := Decimal.length_fraction (shortest magnitude) some
    rw [empty] at length
    exact some length.symm
  have spells := @spells_real rules
    (Nat.toDigits 10 ((shortest magnitude).number / 10 ^ (shortest magnitude).places)) _
    Nat.toDigits_ne_nil (fun _ => Decimal.isDigit_of_mem_toDigits) nonempty
    (fun _ => Decimal.isDigit_of_mem_fraction)
  rw [text] at parsed ⊢
  rw [parsed] at spells
  exact spells

theorem spells_finite {bits : UInt64} (finite : bits < REAL_INFINITY) :
    Spells rules (realText bits) [.real bits] := by
  have below : bits.toNat < 2047 * 2 ^ 52 := UInt64.lt_iff_toNat_lt.mp finite
  have split : SignSplit bits false bits.toNat := ⟨by omega, by simp⟩
  have shown := displayReal_finite split below
  rw [UInt64.ofNat_toNat, if_neg Bool.false_ne_true, List.nil_append] at shown
  unfold realText
  rw [if_neg (UInt64.ne_of_lt finite), shown]
  by_cases whole : (shortest bits).places = 0
  · have text : (shortest bits).text = Nat.toDigits 10 (shortest bits).number := by
      unfold Decimal.text
      rw [if_pos whole]
    have digits : ∀ char ∈ Nat.toDigits 10 (shortest bits).number, char.isDigit = true :=
      fun _ => Decimal.isDigit_of_mem_toDigits
    have noPoint : '.' ∉ Nat.toDigits 10 (shortest bits).number := fun listed =>
      Decimal.ne_point_of_isDigit (digits '.' listed) rfl
    have spells := @spells_real rules (Nat.toDigits 10 (shortest bits).number) ['0']
      Nat.toDigits_ne_nil digits (by simp) (List.forall_mem_singleton.mpr rfl)
    have value :
        parseReal (Nat.toDigits 10 (shortest bits).number ++ ['.', '0']) = bits := by
      have zero : Nat.ofDigitChars 10 ['0'] (shortest bits).number =
          10 * (shortest bits).number := by
        simp [Nat.ofDigitChars_cons]
      have parsed := Decimal.parseReal_text (shortest bits)
      rw [shortest_bits below, text, Decimal.parseReal_digits] at parsed
      rw [Decimal.parseReal_point _ _ digits, Nat.ofDigitChars_append,
        Nat.ofDigitChars_ten_toDigits, zero, List.length_singleton,
        BinaryRounding.nearest_tenfold, parsed]
    rw [text, if_neg noPoint]
    rw [value] at spells
    exact spells
  · have point : '.' ∈ (shortest bits).text := by
      unfold Decimal.text
      rw [if_neg whole]
      simp
    rw [if_pos point]
    exact spells_point finite whole

theorem spells_realText {bits : UInt64} (number : bits ≤ REAL_INFINITY) :
    Spells rules (realText bits) [.real bits] := by
  rcases UInt64.lt_or_eq_of_le number with finite | rfl
  · exact spells_finite finite
  · unfold realText
    rw [if_pos rfl]
    exact spells_infinity

theorem spells_text {token : Token} (written : Token.Written rules token) :
    Spells rules token.text [token] := by
  cases token with
  | integer number =>
      have nonnegative : 0 ≤ number.toInt := Int64.le_iff_toInt_le.mp written
      have fits : number.toInt.toNat < 2 ^ 63 := by
        have bound := number.toInt_lt
        omega
      have same : Int64.ofNat number.toInt.toNat = number := by
        apply Int64.toInt_inj.mp
        rw [Int64.toInt_ofNat_of_lt fits]
        omega
      have spells := @spells_integer rules _ fits
      rw [same] at spells
      exact spells
  | real bits => exact spells_realText written
  | str string =>
      have spells := @spells_string rules string.toList
      rw [String.ofList_toList] at spells
      exact spells
  | ident name =>
      obtain ⟨identifier, same⟩ := written
      have spells := identifier.spells
      rw [same, String.ofList_toList] at spells
      exact spells
  | keyword word => exact spells_keyword word
  | comma | dot | semicolon | lParen | rParen | star | plus | minus | slash | eq | question =>
      exact spells_symbol (by decide) rfl
  | notEq | ltEq | gtEq =>
      exact spells_comparison (by decide) rfl fun rest apart => rfl
  | lt | gt =>
      exact spells_comparison (by decide) rfl
        (lexComparison_apart rfl fun rest => rfl)

theorem spells_spaced
    {tokens : List Token}
    (some : tokens ≠ [])
    (written : ∀ token ∈ tokens, Token.Written rules token) :
    Spells rules (spaced tokens) tokens := by
  induction tokens with
  | nil => exact absurd rfl some
  | cons token rest inductionHypothesis =>
      have first := spells_text (written token List.mem_cons_self)
      cases rest with
      | nil => exact first
      | cons next rest =>
          have later := inductionHypothesis (by simp) fun other listed =>
            written other (List.mem_cons_of_mem token listed)
          exact first.spaced later

end PrehniteDB.Sql
