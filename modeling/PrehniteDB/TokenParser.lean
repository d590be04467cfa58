import Mathlib.Data.List.Basic

namespace PrehniteDB.TokenParser

/-!
# Parsers over a list of tokens

A parser reads the tokens that are left, with a memory beside them, or fails.
`Reads` says what it makes of known tokens, and is put together from the parts of a
parser.
-/

structure Input (Token Memory : Type) where
  tokens : List Token
  memory : Memory

abbrev Parser (Token Memory Failure : Type) := StateT (Input Token Memory) (Except Failure)

variable {Token Memory Failure Result Next : Type}

def peek : Parser Token Memory Failure (Option Token) := fun input =>
  .ok (input.tokens.head?, input)

def advance : Parser Token Memory Failure (Option Token) := fun input =>
  match input.tokens with
  | [] => .ok (none, input)
  | token :: rest => .ok (some token, { input with tokens := rest })

/-- Consumes the next token when `accepts` makes something of it. -/
def eat (accepts : Token → Option Result) : Parser Token Memory Failure (Option Result) :=
  fun input =>
    match input.tokens with
    | [] => .ok (none, input)
    | token :: rest =>
        match accepts token with
        | some result => .ok (some result, { input with tokens := rest })
        | none => .ok (none, input)

/-- The value of the memory, which is then changed. -/
def remember (change : Memory → Memory) : Parser Token Memory Failure Memory := fun input =>
  .ok (input.memory, { input with memory := change input.memory })

/-- Goes round until the body breaks off, at most as often as the number verdict. -/
def loop
    (exhausted : Failure)
    (body : Result → Parser Token Memory Failure (Result ⊕ Next)) :
    Nat → Result → Parser Token Memory Failure Next
  | 0, _ => throw exhausted
  | rounds + 1, state => do
      match ← body state with
      | .inl next => loop exhausted body rounds next
      | .inr result => pure result

/-! ## Reading known tokens -/

/-- In front of what may follow, the parser takes exactly these tokens for the result. -/
def Reads
    (parser : Parser Token Memory Failure Result)
    (tokens : List Token)
    (follows : List Token → Prop)
    (result : Result) : Prop :=
  ∀ rest memory, follows rest →
    parser { tokens := tokens ++ rest, memory } = .ok (result, { tokens := rest, memory })

section Reading

variable {follows : List Token → Prop} {tokens later : List Token}

theorem Reads.pure (result : Result) :
    Reads (Pure.pure result : Parser Token Memory Failure Result) [] follows result := by
  intro rest memory _
  rfl

theorem Reads.bind
    {first : Parser Token Memory Failure Result}
    {second : Result → Parser Token Memory Failure Next}
    {between : List Token → Prop}
    {result : Result}
    {answer : Next}
    (before : Reads first tokens between result)
    (joined : ∀ rest, follows rest → between (later ++ rest))
    (behind : Reads (second result) later follows answer) :
    Reads (first >>= second) (tokens ++ later) follows answer := by
  intro rest memory allowed
  change (first { tokens := tokens ++ later ++ rest, memory } >>= fun pair =>
    second pair.1 pair.2) = _
  rw [List.append_assoc, before (later ++ rest) memory (joined rest allowed)]
  exact behind rest memory allowed

theorem Reads.bind_end
    {first : Parser Token Memory Failure Result}
    {second : Result → Parser Token Memory Failure Next}
    {result : Result}
    {answer : Next}
    (before : Reads first tokens follows result)
    (behind : Reads (second result) [] follows answer) :
    Reads (first >>= second) tokens follows answer := by
  have joined := before.bind (fun rest allowed => allowed) behind
  rw [List.append_nil] at joined
  exact joined

theorem Reads.token_then
    {first : Parser Token Memory Failure Result}
    {second : Result → Parser Token Memory Failure Next}
    {token : Token}
    {result : Result}
    {answer : Next}
    (before : Reads first [token] (fun _ => True) result)
    (behind : Reads (second result) tokens follows answer) :
    Reads (first >>= second) (token :: tokens) follows answer :=
  before.bind (fun _ _ => trivial) behind

theorem Reads.nothing_then
    {first : Parser Token Memory Failure Result}
    {second : Result → Parser Token Memory Failure Next}
    {between : List Token → Prop}
    {result : Result}
    {answer : Next}
    (before : Reads first [] between result)
    (joined : ∀ rest, follows rest → between (tokens ++ rest))
    (behind : Reads (second result) tokens follows answer) :
    Reads (first >>= second) tokens follows answer :=
  before.bind joined behind

theorem Reads.map
    {parser : Parser Token Memory Failure Result}
    {result : Result}
    (change : Result → Next)
    (reads : Reads parser tokens follows result) :
    Reads (change <$> parser) tokens follows (change result) := by
  intro rest memory allowed
  change (parser { tokens := tokens ++ rest, memory } >>= fun pair =>
    Except.ok (change pair.1, pair.2)) = _
  rw [reads rest memory allowed]
  rfl

theorem Reads.mono
    {parser : Parser Token Memory Failure Result}
    {wider : List Token → Prop}
    {result : Result}
    (reads : Reads parser tokens wider result)
    (narrows : ∀ rest, follows rest → wider rest) :
    Reads parser tokens follows result :=
  fun rest memory allowed => reads rest memory (narrows rest allowed)

theorem reads_peek
    {behind : Option Token → Parser Token Memory Failure Result}
    {token : Token}
    {result : Result}
    (seen : Reads (behind (some token)) (token :: tokens) follows result) :
    Reads (peek >>= behind) (token :: tokens) follows result :=
  fun rest memory allowed => seen rest memory allowed

theorem reads_peek_follows
    {behind : Option Token → Parser Token Memory Failure Result}
    {result : Result}
    (seen : ∀ rest, follows rest →
      Reads (behind rest.head?) [] (fun other => other = rest) result) :
    Reads (peek >>= behind) [] follows result :=
  fun rest memory allowed => seen rest allowed rest memory rfl

theorem reads_advance
    {behind : Option Token → Parser Token Memory Failure Result}
    {token : Token}
    {result : Result}
    (taken : Reads (behind (some token)) tokens follows result) :
    Reads (advance >>= behind) (token :: tokens) follows result :=
  fun rest memory allowed => taken rest memory allowed

theorem reads_eat
    {accepts : Token → Option Result}
    {token : Token}
    {result : Result}
    (accepted : accepts token = some result) :
    Reads (eat accepts : Parser Token Memory Failure (Option Result)) [token] follows
      (some result) := by
  intro rest memory _
  unfold eat
  simp [accepted]

/-- Nothing is taken where nothing that may follow is accepted. -/
theorem reads_eat_none
    {accepts : Token → Option Result}
    (refused : ∀ rest, follows rest → ∀ token ∈ rest.head?, accepts token = none) :
    Reads (eat accepts : Parser Token Memory Failure (Option Result)) [] follows none := by
  intro rest memory allowed
  cases rest with
  | nil => rfl
  | cons token rest =>
      have none := refused (token :: rest) allowed token rfl
      unfold eat
      simp [none]

variable
  {exhausted : Failure}
  {body : Result → Parser Token Memory Failure (Result ⊕ Next)}

theorem reads_loop_round
    {state next : Result}
    {between : List Token → Prop}
    {answer : Next}
    {rounds : Nat}
    (round : Reads (body state) tokens between (.inl next))
    (joined : ∀ rest, follows rest → between (later ++ rest))
    (behind : Reads (loop exhausted body rounds next) later follows answer) :
    Reads (loop exhausted body (rounds + 1) state) (tokens ++ later) follows answer :=
  Reads.bind round joined behind

theorem reads_loop_end
    {state : Result}
    {answer : Next}
    {rounds : Nat}
    (some : 0 < rounds)
    (round : Reads (body state) tokens follows (.inr answer)) :
    Reads (loop exhausted body rounds state) tokens follows answer := by
  cases rounds with
  | zero => omega
  | succ rounds =>
      exact Reads.bind_end round (Reads.pure answer)

end Reading

end PrehniteDB.TokenParser
