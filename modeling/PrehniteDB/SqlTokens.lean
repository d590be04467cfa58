import PrehniteDB.RealText

namespace PrehniteDB.Sql

/-!
# SQL text and its tokens

The lexer turns the characters of a statement into tokens.  What the standard
library knows of characters, and how it prints values for an error, is looked up
in `TextRules`; of ASCII characters it is spelled out there.
-/

/-! ## Text -/

/-- `char::is_whitespace` and its like, and `{:?}`. -/
structure TextRules where
  isWhitespace : Char → Bool
  isAlphabetic : Char → Bool
  isNumeric : Char → Bool
  /-- `{:?}` of an `f64`, of a `str`, of a `char`. -/
  debugReal : UInt64 → String
  debugText : List Char → String
  debugChar : Char → String
  whitespace_ascii : ∀ char : Char, char.toNat < 128 →
    (isWhitespace char = true ↔ char.toNat = 32 ∨ 9 ≤ char.toNat ∧ char.toNat ≤ 13)
  alphabetic_ascii : ∀ char : Char, char.toNat < 128 → isAlphabetic char = char.isAlpha
  numeric_ascii : ∀ char : Char, char.toNat < 128 → isNumeric char = char.isDigit
  /-- No letter is a blank. -/
  alphabetic_visible : ∀ char, isAlphabetic char = true → isWhitespace char = false

namespace TextRules

variable (rules : TextRules)

def startsWord (char : Char) : Bool := rules.isAlphabetic char || char = '_'

def continuesWord (char : Char) : Bool :=
  rules.isAlphabetic char || rules.isNumeric char || char = '_'

end TextRules

/-! ## Tokens -/

inductive Keyword where
  | select
  | from_
  | where_
  | insert
  | into
  | values
  | create
  | table
  | drop
  | update
  | set
  | delete
  | index
  | on
  | join
  | inner
  | left
  | cross
  | as
  | order
  | by_
  | asc
  | desc
  | group
  | having
  | vacuum
  | explain
  | analyze
  | primary
  | key
  | unique
  | references
  | cascade
  | no
  | action
  | restrict
  | begin
  | commit
  | rollback
  | limit
  | offset
  | and
  | or
  | not
  | is
  | in_
  | exists_
  | null
  | true
  | false
  | int
  | integer
  | text
  | real
  | float
  | bool
  | boolean
  deriving Repr, DecidableEq

namespace Keyword

/-- The words that the lexer keeps for itself. -/
def words : List (String × Keyword) :=
  [("SELECT", select), ("FROM", from_), ("WHERE", where_), ("INSERT", insert),
    ("INTO", into), ("VALUES", values), ("CREATE", create), ("TABLE", table),
    ("DROP", drop), ("UPDATE", update), ("SET", set), ("DELETE", delete),
    ("INDEX", index), ("ON", on), ("JOIN", join), ("INNER", inner), ("LEFT", left),
    ("CROSS", cross), ("AS", as), ("ORDER", order), ("BY", by_), ("ASC", asc),
    ("DESC", desc), ("GROUP", group), ("HAVING", having), ("VACUUM", vacuum),
    ("EXPLAIN", explain), ("ANALYZE", analyze), ("PRIMARY", primary), ("KEY", key),
    ("UNIQUE", unique), ("REFERENCES", references), ("CASCADE", cascade), ("NO", no),
    ("ACTION", action), ("RESTRICT", restrict), ("BEGIN", begin), ("COMMIT", commit),
    ("ROLLBACK", rollback), ("LIMIT", limit), ("OFFSET", offset), ("AND", and),
    ("OR", or), ("NOT", not), ("IS", is), ("IN", in_), ("EXISTS", exists_),
    ("NULL", null), ("TRUE", true), ("FALSE", false), ("INT", int),
    ("INTEGER", integer), ("TEXT", text), ("REAL", real), ("FLOAT", float),
    ("BOOL", bool), ("BOOLEAN", boolean)]

/-- The case of the letters does not matter. -/
def fromWord (word : List Char) : Option Keyword :=
  words.lookup (String.ofList (word.map Char.toUpper))

/-- `{:?}`: the first letter stays as it is in the table. -/
def debug (keyword : Keyword) : String :=
  match words.find? fun entry => entry.2 = keyword with
  | some (word, _) =>
      String.ofList (word.toList.take 1 ++ (word.toList.drop 1).map Char.toLower)
  | none => ""

end Keyword

inductive Token where
  | integer (number : Int64)
  | real (bits : UInt64)
  | str (string : String)
  | ident (name : String)
  | keyword (keyword : Keyword)
  | comma
  | dot
  | semicolon
  | lParen
  | rParen
  | star
  | plus
  | minus
  | slash
  | eq
  | notEq
  | lt
  | ltEq
  | gt
  | gtEq
  | question
  deriving Repr, DecidableEq

def Token.debug (rules : TextRules) : Token → String
  | .integer number => "Integer(" ++ toString number ++ ")"
  | .real bits => "Real(" ++ rules.debugReal bits ++ ")"
  | .str string => "Str(" ++ rules.debugText string.toList ++ ")"
  | .ident name => "Ident(" ++ rules.debugText name.toList ++ ")"
  | .keyword word => "Keyword(" ++ word.debug ++ ")"
  | .comma => "Comma"
  | .dot => "Dot"
  | .semicolon => "Semicolon"
  | .lParen => "LParen"
  | .rParen => "RParen"
  | .star => "Star"
  | .plus => "Plus"
  | .minus => "Minus"
  | .slash => "Slash"
  | .eq => "Eq"
  | .notEq => "NotEq"
  | .lt => "Lt"
  | .ltEq => "LtEq"
  | .gt => "Gt"
  | .gtEq => "GtEq"
  | .question => "Question"

/-! ## The lexer -/

/-- Digits as a number; `None` is beyond the `i64`s. -/
def parseInteger (digits : List Char) : Option Int64 :=
  let number := digits.foldl (fun sum digit => sum * 10 + (digit.toNat - '0'.toNat)) 0
  if number < 2 ^ 63 then some (Int64.ofNat number) else none

/-- The rest of a `'...'` literal behind its opening quote; `''` stands for a quote. -/
def lexString : List Char → List Char → Except Error (List Char × List Char)
  | [], _ => .error (.parse "unterminated string literal")
  | '\'' :: '\'' :: rest, string => lexString rest (string ++ ['\''])
  | '\'' :: rest, string => .ok (string, rest)
  | char :: rest, string => lexString rest (string ++ [char])

/-- A number needs a point with a digit behind it to be a real. -/
def lexNumber (rules : TextRules) (chars : List Char) : Except Error (Token × List Char) :=
  let digits := chars.takeWhile Char.isDigit
  let rest := chars.dropWhile Char.isDigit
  let whole : Except Error (Token × List Char) :=
    match parseInteger digits with
    | some number => .ok (.integer number, rest)
    | none =>
        .error (.parse ("integer literal " ++ rules.debugText digits ++ " is out of range"))
  match rest with
  | '.' :: next :: later =>
      if next.isDigit then
        let fraction := (next :: later).takeWhile Char.isDigit
        .ok (.real (parseReal (digits ++ '.' :: fraction)),
          (next :: later).dropWhile Char.isDigit)
      else whole
  | _ => whole

def lexWord (word : List Char) : Token :=
  match Keyword.fromWord word with
  | some keyword => .keyword keyword
  | none => .ident (String.ofList word)

/-- The tokens of one character. -/
def symbol : Char → Option Token
  | ',' => some .comma
  | '.' => some .dot
  | ';' => some .semicolon
  | '(' => some .lParen
  | ')' => some .rParen
  | '*' => some .star
  | '+' => some .plus
  | '-' => some .minus
  | '/' => some .slash
  | '=' => some .eq
  | '?' => some .question
  | _ => none

/-- `<`, `>` and `!` with the character behind them. -/
def lexComparison : List Char → Option (Except Error (Token × List Char))
  | '<' :: '=' :: rest => some (.ok (.ltEq, rest))
  | '<' :: '>' :: rest => some (.ok (.notEq, rest))
  | '<' :: rest => some (.ok (.lt, rest))
  | '>' :: '=' :: rest => some (.ok (.gtEq, rest))
  | '>' :: rest => some (.ok (.gt, rest))
  | '!' :: '=' :: rest => some (.ok (.notEq, rest))
  | '!' :: _ => some (.error (.parse "'!' must be part of '!=' "))
  | _ => none

/-- What starts the text: a token, or a blank or a comment to be skipped. -/
def lexNext (rules : TextRules) : List Char → Except Error (Option Token × List Char)
  | [] => .ok (none, [])
  | char :: rest =>
      if rules.isWhitespace char then .ok (none, rest)
      else if char = '-' ∧ rest.head? = some '-' then
        .ok (none, (char :: rest).dropWhile (· ≠ '\n'))
      else
        match symbol char, lexComparison (char :: rest) with
        | some token, _ => .ok (some token, rest)
        | none, some lexed => lexed.map fun found => (some found.1, found.2)
        | none, none =>
            if char = '\'' then
              (lexString rest []).map fun found =>
                (some (.str (String.ofList found.1)), found.2)
            else if char.isDigit then
              (lexNumber rules (char :: rest)).map fun found => (some found.1, found.2)
            else if rules.startsWord char then
              .ok (some (lexWord ((char :: rest).takeWhile rules.continuesWord)),
                (char :: rest).dropWhile rules.continuesWord)
            else .error (.parse ("unexpected character " ++ rules.debugChar char))

/-- The number bounds the tokens, blanks and comments. -/
def tokenizeWithin (rules : TextRules) : Nat → List Char → Except Error (List Token)
  | _, [] => .ok []
  | 0, _ :: _ => .error (.exhausted "the lexer's rounds")
  | rounds + 1, char :: chars => do
      let (token, rest) ← lexNext rules (char :: chars)
      let tokens ← tokenizeWithin rules rounds rest
      pure (token.toList ++ tokens)

/-- Each round takes a character at least. -/
def tokenize (rules : TextRules) (input : String) : Except Error (List Token) :=
  tokenizeWithin rules input.toList.length input.toList

end PrehniteDB.Sql
