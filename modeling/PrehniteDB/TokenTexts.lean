import Mathlib
import PrehniteDB.SqlTokens

namespace PrehniteDB.Sql

/-!
# Texts of tokens

Which characters the lexer reads as which tokens.  A text that spells tokens may
stand before a blank, or at the end of the input.
-/

variable {rules : TextRules}

/-! ## Characters -/

namespace TextRules

variable (rules)

theorem startsWord_ascii {char : Char} (ascii : char.toNat < 128) :
    rules.startsWord char = (char.isAlpha || decide (char = '_')) := by
  unfold startsWord
  rw [rules.alphabetic_ascii char ascii]

theorem continuesWord_blank : rules.continuesWord ' ' = false := by
  unfold continuesWord
  rw [rules.alphabetic_ascii ' ' (by decide), rules.numeric_ascii ' ' (by decide)]
  decide

theorem isWhitespace_blank : rules.isWhitespace ' ' = true :=
  (rules.whitespace_ascii ' ' (by decide)).mpr (.inl rfl)

/-- Only blanks and control characters are white in ASCII. -/
theorem not_isWhitespace {char : Char} (visible : 32 < char.toNat) (ascii : char.toNat < 128) :
    rules.isWhitespace char = false := by
  rw [← Bool.not_eq_true, rules.whitespace_ascii char ascii]
  omega

theorem startsWord_visible {char : Char} (starts : rules.startsWord char = true) :
    rules.isWhitespace char = false := by
  unfold startsWord at starts
  rcases (Bool.or_eq_true _ _).mp starts with letter | underscore
  · exact rules.alphabetic_visible char letter
  · obtain rfl := of_decide_eq_true underscore
    exact rules.not_isWhitespace (by decide) (by decide)

theorem startsWord_ne {char other : Char} (starts : rules.startsWord char = true)
    (ascii : other.toNat < 128) (plain : (other.isAlpha || decide (other = '_')) = false) :
    char ≠ other := by
  rintro rfl
  rw [rules.startsWord_ascii ascii, plain] at starts
  cases starts

end TextRules

/-- The rules of a text that is all ASCII. -/
def asciiRules : TextRules where
  isWhitespace char := char.toNat = 32 ∨ 9 ≤ char.toNat ∧ char.toNat ≤ 13
  isAlphabetic char := char.isAlpha
  isNumeric char := char.isDigit
  debugReal bits := String.ofList (displayReal bits)
  debugText text := String.ofList ('"' :: text ++ ['"'])
  debugChar char := String.ofList ['\'', char, '\'']
  whitespace_ascii char _ := by simp
  alphabetic_ascii char _ := rfl
  numeric_ascii char _ := rfl
  alphabetic_visible char letter := by
    have first : 'A'.val.toNat = 65 := rfl
    have last : 'z'.val.toNat = 122 := rfl
    have upper : 'Z'.val.toNat = 90 := rfl
    have lower : 'a'.val.toNat = 97 := rfl
    have number : char.val.toNat = char.toNat := rfl
    simp only [Char.isAlpha, Char.isUpper, Char.isLower, Bool.or_eq_true, Bool.and_eq_true,
      decide_eq_true_eq, ge_iff_le, UInt32.le_iff_toNat_le] at letter
    rw [decide_eq_false_iff_not]
    omega

/-! ## Reading a text -/

/-- What `tokenize` makes of the characters. -/
def Lexes (rules : TextRules) (chars : List Char) (result : Except Error (List Token)) : Prop :=
  ∀ rounds, chars.length ≤ rounds → tokenizeWithin rules rounds chars = result

theorem tokenize_eq {input : String} {result : Except Error (List Token)}
    (lexes : Lexes rules input.toList result) : tokenize rules input = result :=
  lexes _ le_rfl

theorem lexes_nil : Lexes rules [] (.ok []) := by
  intro rounds _
  cases rounds <;> rfl

/-- A token, or a blank, comes first. -/
theorem lexes_cons
    {char : Char}
    {chars rest : List Char}
    {token : Option Token}
    {result : Except Error (List Token)}
    (next : lexNext rules (char :: chars) = .ok (token, rest))
    (shorter : rest.length ≤ chars.length)
    (lexes : Lexes rules rest result) :
    Lexes rules (char :: chars) (result.map (token.toList ++ ·)) := by
  intro rounds enough
  cases rounds with
  | zero => simp at enough
  | succ rounds =>
      have fits : rest.length ≤ rounds := by
        rw [List.length_cons] at enough
        omega
      rw [tokenizeWithin, next]
      change (tokenizeWithin rules rounds rest >>= fun tokens =>
        pure (token.toList ++ tokens)) = _
      rw [lexes rounds fits]
      cases result <;> rfl

theorem lexes_error
    {char : Char}
    {chars : List Char}
    {error : Error}
    (next : lexNext rules (char :: chars) = .error error) :
    Lexes rules (char :: chars) (.error error) := by
  intro rounds enough
  cases rounds with
  | zero => simp at enough
  | succ rounds =>
      rw [tokenizeWithin, next]
      rfl

theorem lexes_blank {rest : List Char} {result : Except Error (List Token)}
    (lexes : Lexes rules rest result) : Lexes rules (' ' :: rest) result := by
  have next : lexNext rules (' ' :: rest) = .ok (none, rest) := by
    unfold lexNext
    dsimp only
    rw [if_pos rules.isWhitespace_blank]
  have skipped := lexes_cons next le_rfl lexes
  cases result <;> exact skipped

/-- A blank follows, or nothing. -/
def Apart (rest : List Char) : Prop := ∀ char ∈ rest.head?, char = ' '

/-- The text is read as the tokens wherever it stands apart from what follows. -/
def Spells (rules : TextRules) (text : List Char) (tokens : List Token) : Prop :=
  ∀ rest result, Apart rest → Lexes rules rest result →
    Lexes rules (text ++ rest) (result.map (tokens ++ ·))

theorem Spells.lexes {text : List Char} {tokens : List Token} (spells : Spells rules text tokens) :
    Lexes rules text (.ok tokens) := by
  have alone := spells [] (.ok []) (by simp [Apart]) lexes_nil
  rw [List.append_nil] at alone
  simpa [Except.map] using alone

theorem Spells.before
    {text rest : List Char}
    {tokens : List Token}
    {result : Except Error (List Token)}
    (spells : Spells rules text tokens)
    (lexes : Lexes rules rest result) :
    Lexes rules (text ++ ' ' :: rest) (result.map (tokens ++ ·)) :=
  spells (' ' :: rest) result (by simp [Apart]) (lexes_blank lexes)

theorem Spells.spaced
    {first second : List Char}
    {tokens later : List Token}
    (before : Spells rules first tokens)
    (behind : Spells rules second later) :
    Spells rules (first ++ ' ' :: second) (tokens ++ later) := by
  intro rest result apart lexes
  have joined := before.before (behind rest result apart lexes)
  rw [List.append_assoc, List.cons_append]
  cases result with
  | error error => exact joined
  | ok tokens => simpa [Except.map] using joined

/-- The first character of the text starts its only token. -/
theorem spells_token
    {char : Char}
    {chars : List Char}
    {token : Token}
    (next : ∀ rest, Apart rest →
      lexNext rules (char :: (chars ++ rest)) = .ok (some token, rest)) :
    Spells rules (char :: chars) [token] := by
  intro rest result apart lexes
  exact lexes_cons (next rest apart) (by simp) lexes

/-! ## The first character -/

section First

variable {char : Char} {rest : List Char}

theorem lexNext_visible
    (visible : rules.isWhitespace char = false)
    (plain : ¬ (char = '-' ∧ rest.head? = some '-')) :
    lexNext rules (char :: rest) =
      match symbol char, lexComparison (char :: rest) with
      | some token, _ => .ok (some token, rest)
      | none, some lexed => lexed.map fun found => (some found.1, found.2)
      | none, none =>
          if char = '\'' then
            (lexString rest []).map fun found => (some (.str (String.ofList found.1)), found.2)
          else if char.isDigit then
            (lexNumber rules (char :: rest)).map fun found => (some found.1, found.2)
          else if rules.startsWord char then
            .ok (some (lexWord ((char :: rest).takeWhile rules.continuesWord)),
              (char :: rest).dropWhile rules.continuesWord)
          else .error (.parse ("unexpected character " ++ rules.debugChar char)) := by
  conv_lhs => unfold lexNext
  dsimp only
  refine (if_neg (by simp [visible])).trans ?_
  exact if_neg plain

theorem lexNext_symbol
    {token : Token}
    (visible : rules.isWhitespace char = false)
    (plain : ¬ (char = '-' ∧ rest.head? = some '-'))
    (known : symbol char = some token) :
    lexNext rules (char :: rest) = .ok (some token, rest) := by
  rw [lexNext_visible visible plain, known]

theorem symbol_eq_none (other : char ∉ ",.;()*+-/=?".toList) : symbol char = none := by
  unfold symbol
  split
  case h_12 => rfl
  all_goals exact absurd (by decide) other

theorem lexComparison_eq_none (other : char ∉ "<>!".toList) :
    lexComparison (char :: rest) = none := by
  unfold lexComparison
  split
  case h_8 => rfl
  all_goals
    rename_i same
    obtain rfl := (List.cons.inj same).1
    exact absurd (by decide) other

/-- Neither a symbol nor a comparison: a literal or a word. -/
theorem lexNext_plain
    (visible : rules.isWhitespace char = false)
    (other : char ∉ ",.;()*+-/=?<>!".toList) :
    lexNext rules (char :: rest) =
      if char = '\'' then
        (lexString rest []).map fun found => (some (.str (String.ofList found.1)), found.2)
      else if char.isDigit then
        (lexNumber rules (char :: rest)).map fun found => (some found.1, found.2)
      else if rules.startsWord char then
        .ok (some (lexWord ((char :: rest).takeWhile rules.continuesWord)),
          (char :: rest).dropWhile rules.continuesWord)
      else .error (.parse ("unexpected character " ++ rules.debugChar char)) := by
  have split : ",.;()*+-/=?<>!".toList = ",.;()*+-/=?".toList ++ "<>!".toList := by decide
  rw [split, List.mem_append, not_or] at other
  have plain : ¬ (char = '-' ∧ rest.head? = some '-') := by
    rintro ⟨rfl, -⟩
    exact absurd (by decide) other.1
  rw [lexNext_visible visible plain, symbol_eq_none other.1, lexComparison_eq_none other.2]

end First

/-! ## Words -/

/-- The name of a table or a column that was created: a word, and no keyword. -/
structure Identifier (rules : TextRules) where
  first : Char
  rest : List Char
  starts : rules.startsWord first = true
  continues : ∀ char ∈ first :: rest, rules.continuesWord char = true
  free : Keyword.fromWord (first :: rest) = none

def Identifier.name {rules : TextRules} (identifier : Identifier rules) : List Char :=
  identifier.first :: identifier.rest

theorem isDigit_ascii {char : Char} (digit : char.isDigit = true) :
    48 ≤ char.toNat ∧ char.toNat ≤ 57 := by
  unfold Char.isDigit at digit
  simp only [Bool.and_eq_true, decide_eq_true_eq] at digit
  exact digit

theorem startsWord_plain {char : Char} (starts : rules.startsWord char = true) :
    char ∉ ",.;()*+-/=?<>!".toList ∧ char ≠ '\'' ∧ char.isDigit = false := by
  refine ⟨fun listed => ?_, rules.startsWord_ne starts (by decide) (by decide), ?_⟩
  · have plain : ∀ other ∈ ",.;()*+-/=?<>!".toList,
        other.toNat < 128 ∧ (other.isAlpha || decide (other = '_')) = false := by
      simp
    obtain ⟨ascii, symbol⟩ := plain char listed
    exact rules.startsWord_ne starts ascii symbol rfl
  · rw [← Bool.not_eq_true]
    intro digit
    have bounds := isDigit_ascii digit
    have letter : (char.isAlpha || decide (char = '_')) = false := by
      have apart : char ≠ '_' := by
        rintro rfl
        revert bounds
        decide
      have number : char.val.toNat = char.toNat := rfl
      simp only [Char.isAlpha, Char.isUpper, Char.isLower, ge_iff_le, UInt32.le_iff_toNat_le, apart,
        decide_false, Bool.or_false, Bool.or_eq_false_iff, Bool.and_eq_false_imp,
        decide_eq_true_eq, decide_eq_false_iff_not]
      have upper : 'A'.val.toNat = 65 := rfl
      have lower : 'a'.val.toNat = 97 := rfl
      omega
    exact rules.startsWord_ne starts (by omega) letter rfl

theorem takeWhile_word
    {word rest : List Char}
    (continues : ∀ char ∈ word, rules.continuesWord char = true)
    (apart : Apart rest) :
    (word ++ rest).takeWhile rules.continuesWord = word ∧
      (word ++ rest).dropWhile rules.continuesWord = rest := by
  rw [List.takeWhile_append_of_pos continues, List.dropWhile_append_of_pos continues]
  cases rest with
  | nil => simp
  | cons char rest =>
      obtain rfl := apart char rfl
      simp [rules.continuesWord_blank]

theorem spells_word
    {first : Char}
    {rest : List Char}
    (starts : rules.startsWord first = true)
    (continues : ∀ char ∈ first :: rest, rules.continuesWord char = true) :
    Spells rules (first :: rest) [lexWord (first :: rest)] := by
  refine spells_token fun later apart => ?_
  obtain ⟨plain, quote, digit⟩ := startsWord_plain starts
  obtain ⟨taken, left⟩ := takeWhile_word continues apart
  rw [lexNext_plain (rules.startsWord_visible starts) plain, if_neg quote, digit,
    if_neg Bool.false_ne_true, if_pos starts]
  rw [List.cons_append] at taken left
  rw [taken, left]

theorem Identifier.spells (identifier : Identifier rules) :
    Spells rules identifier.name [.ident (String.ofList identifier.name)] := by
  have word := spells_word identifier.starts identifier.continues
  rw [lexWord, identifier.free] at word
  exact word

/-! ## Symbols -/

theorem apart_head {rest : List Char} (apart : Apart rest) {char : Char} (other : char ≠ ' ') :
    rest.head? ≠ some char := by
  intro found
  exact other (apart char found)

theorem spells_symbol
    {char : Char}
    {token : Token}
    (visible : 32 < char.toNat ∧ char.toNat < 128)
    (known : symbol char = some token) :
    Spells rules [char] [token] := by
  refine spells_token fun rest apart => ?_
  have plain : ¬ (char = '-' ∧ rest.head? = some '-') := fun comment =>
    apart_head apart (by decide) comment.2
  exact lexNext_symbol (rules.not_isWhitespace visible.1 visible.2) plain known

/-- The sign of a number that is written behind it. -/
theorem Spells.negated {text : List Char} {tokens : List Token}
    (spells : Spells rules text tokens) (some : text.head? ≠ some '-') (nonempty : text ≠ []) :
    Spells rules ('-' :: text) (.minus :: tokens) := by
  intro rest result apart lexes
  have head : (text ++ rest).head? = text.head? := List.head?_append_of_ne_nil _ nonempty
  have plain : ¬ ('-' = '-' ∧ (text ++ rest).head? = Option.some '-') := by
    rw [head]
    exact fun comment => some comment.2
  have visible : rules.isWhitespace '-' = false :=
    rules.not_isWhitespace (by decide) (by decide)
  have next := lexNext_symbol visible plain rfl
  have taken := lexes_cons next le_rfl (spells rest result apart lexes)
  cases result with
  | error error => exact taken
  | ok later => simpa [Except.map] using taken

/-! ## Literals -/

def quoted (string : List Char) : List Char :=
  '\'' :: (string.flatMap fun char => if char = '\'' then ['\'', '\''] else [char]) ++ ['\'']

theorem lexString_quoted (string read rest : List Char) (apart : Apart rest) :
    lexString ((string.flatMap fun char => if char = '\'' then ['\'', '\''] else [char]) ++
        '\'' :: rest) read =
      .ok (read ++ string, rest) := by
  induction string generalizing read with
  | nil =>
      cases rest with
      | nil => simp [lexString]
      | cons char rest =>
          obtain rfl := apart char rfl
          simp [lexString]
  | cons char string inductionHypothesis =>
      by_cases quote : char = '\''
      · subst quote
        simp only [List.flatMap_cons, if_true, List.cons_append, List.nil_append]
        rw [lexString, inductionHypothesis]
        simp
      · simp only [List.flatMap_cons, quote, if_false, List.cons_append, List.nil_append]
        rw [lexString, inductionHypothesis]
        · simp
        all_goals simp [quote]

theorem spells_string (string : List Char) :
    Spells rules (quoted string) [.str (String.ofList string)] := by
  unfold quoted
  rw [List.cons_append]
  refine spells_token fun rest apart => ?_
  rw [lexNext_plain (rules.not_isWhitespace (by decide) (by decide)) (by decide), if_pos rfl,
    List.append_assoc, List.singleton_append, lexString_quoted string [] rest apart]
  rfl

theorem isDigit_plain {char : Char} (digit : char.isDigit = true) :
    char ∉ ",.;()*+-/=?<>!".toList ∧ char ≠ '\'' := by
  refine ⟨fun listed => ?_, ?_⟩
  · have plain : ∀ other ∈ ",.;()*+-/=?<>!".toList, other.isDigit = false := by simp
    rw [plain char listed] at digit
    cases digit
  · rintro rfl
    exact absurd digit (by decide)

theorem lexNext_digit {char : Char} {rest : List Char} (digit : char.isDigit = true) :
    lexNext rules (char :: rest) =
      (lexNumber rules (char :: rest)).map fun found => (some found.1, found.2) := by
  obtain ⟨plain, quote⟩ := isDigit_plain digit
  have bounds := isDigit_ascii digit
  rw [lexNext_plain (rules.not_isWhitespace (by omega) (by omega)) plain, if_neg quote,
    if_pos digit]

theorem takeWhile_digits
    {digits rest : List Char}
    (all : ∀ char ∈ digits, char.isDigit = true)
    (ends : ∀ char ∈ rest.head?, char.isDigit = false) :
    (digits ++ rest).takeWhile Char.isDigit = digits ∧
      (digits ++ rest).dropWhile Char.isDigit = rest := by
  rw [List.takeWhile_append_of_pos all, List.dropWhile_append_of_pos all]
  cases rest with
  | nil => simp
  | cons char rest => simp [ends char rfl]

theorem Apart.ends_digits {rest : List Char} (apart : Apart rest) :
    ∀ char ∈ rest.head?, char.isDigit = false := by
  intro char first
  rw [apart char first]
  decide

theorem lexNumber_whole
    {digits rest : List Char}
    (all : ∀ char ∈ digits, char.isDigit = true)
    (apart : Apart rest) :
    lexNumber rules (digits ++ rest) =
      match parseInteger digits with
      | some number => .ok (.integer number, rest)
      | none =>
          .error (.parse ("integer literal " ++ rules.debugText digits ++ " is out of range")) := by
  obtain ⟨taken, left⟩ := takeWhile_digits all apart.ends_digits
  unfold lexNumber
  dsimp only
  rw [taken, left]
  cases rest with
  | nil => rfl
  | cons char rest =>
      obtain rfl := apart char rfl
      rfl

theorem lexNumber_real
    {whole fraction rest : List Char}
    (digits : ∀ char ∈ whole, char.isDigit = true)
    (nonempty : fraction ≠ [])
    (all : ∀ char ∈ fraction, char.isDigit = true)
    (apart : Apart rest) :
    lexNumber rules (whole ++ '.' :: (fraction ++ rest)) =
      .ok (.real (parseReal (whole ++ '.' :: fraction)), rest) := by
  have point : ∀ char ∈ ('.' :: (fraction ++ rest)).head?, char.isDigit = false := by
    rintro char ⟨⟩
    decide
  obtain ⟨taken, left⟩ := takeWhile_digits digits point
  obtain ⟨first, later, rfl⟩ := List.exists_cons_of_ne_nil nonempty
  obtain ⟨fractionTaken, fractionLeft⟩ := takeWhile_digits all apart.ends_digits
  unfold lexNumber
  dsimp only
  rw [taken, left]
  simp only [List.cons_append] at fractionTaken fractionLeft ⊢
  rw [if_pos (all first List.mem_cons_self), fractionTaken, fractionLeft]

theorem parseInteger_digits (number : Nat) :
    parseInteger (Nat.toDigits 10 number) =
      if number < 2 ^ 63 then some (Int64.ofNat number) else none := by
  have value :
      (Nat.toDigits 10 number).foldl
          (fun sum digit => sum * 10 + (digit.toNat - '0'.toNat)) 0 = number := by
    have read : Nat.ofDigitChars 10 (Nat.toDigits 10 number) 0 = number :=
      Nat.ofDigitChars_ten_toDigits
    simpa only [Nat.ofDigitChars, mul_comm] using read
  unfold parseInteger
  rw [value]

theorem toDigits_cons (number : Nat) :
    ∃ first later, Nat.toDigits 10 number = first :: later ∧ first.isDigit = true := by
  obtain ⟨first, later, shape⟩ :=
    List.exists_cons_of_ne_nil (Nat.toDigits_ne_nil (n := number) (b := 10))
  exact ⟨first, later, shape,
    Decimal.isDigit_of_mem_toDigits (shape ▸ List.mem_cons_self)⟩

theorem spells_integer {number : Nat} (fits : number < 2 ^ 63) :
    Spells rules (Nat.toDigits 10 number) [.integer (Int64.ofNat number)] := by
  obtain ⟨first, later, shape, digit⟩ := toDigits_cons number
  rw [shape]
  refine spells_token fun rest apart => ?_
  have digits : ∀ char ∈ Nat.toDigits 10 number, char.isDigit = true :=
    fun _ => Decimal.isDigit_of_mem_toDigits
  have read := @lexNumber_whole rules _ _ digits apart
  rw [parseInteger_digits, if_pos fits, shape] at read
  rw [lexNext_digit digit]
  rw [List.cons_append] at read
  rw [read]
  rfl

/-- A larger number is no literal. -/
theorem lexes_large {number : Nat} (large : 2 ^ 63 ≤ number) :
    ∃ error, Lexes rules (Nat.toDigits 10 number) (.error error) := by
  obtain ⟨first, later, shape, digit⟩ := toDigits_cons number
  have digits : ∀ char ∈ Nat.toDigits 10 number, char.isDigit = true :=
    fun _ => Decimal.isDigit_of_mem_toDigits
  have read := @lexNumber_whole rules _ [] digits (by simp [Apart])
  rw [parseInteger_digits, if_neg (Nat.not_lt.mpr large), List.append_nil] at read
  rw [shape] at read ⊢
  refine ⟨.parse ("integer literal " ++ rules.debugText (first :: later) ++ " is out of range"),
    lexes_error ?_⟩
  rw [lexNext_digit digit, read]
  rfl

theorem spells_real
    {whole fraction : List Char}
    (some : whole ≠ [])
    (digits : ∀ char ∈ whole, char.isDigit = true)
    (nonempty : fraction ≠ [])
    (all : ∀ char ∈ fraction, char.isDigit = true) :
    Spells rules (whole ++ '.' :: fraction) [.real (parseReal (whole ++ '.' :: fraction))] := by
  obtain ⟨first, later, rfl⟩ := List.exists_cons_of_ne_nil some
  rw [List.cons_append]
  refine spells_token fun rest apart => ?_
  have read := @lexNumber_real rules _ _ _ digits nonempty all apart
  rw [lexNext_digit (digits first List.mem_cons_self)]
  simp only [List.append_assoc, List.cons_append] at read ⊢
  rw [read]
  rfl

end PrehniteDB.Sql
