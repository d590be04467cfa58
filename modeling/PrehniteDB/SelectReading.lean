import PrehniteDB.ExpressionReading

namespace PrehniteDB.Sql

open AccessPaths (OrderKey)
open ReadPaths (JoinKind)
open Sql.Parser
open TokenParser

/-!
# Reading a `SELECT`

The parser reads the tokens of a `SELECT` before a closing parenthesis, and with
them those of any expression: the grammar, entered deep enough, reads the text of
an expression to its end.
-/

/-! ## What follows a clause -/

/-- Clauses stand in this order; a comma, `FROM` and `ON` lie between their parts. -/
def clauseRank : Token → Nat
  | .comma | .keyword .from_ | .keyword .on => 1
  | .keyword .join | .keyword .inner | .keyword .left | .keyword .cross => 2
  | .keyword .where_ => 3
  | .keyword .group => 4
  | .keyword .having => 5
  | .keyword .order => 6
  | .keyword .limit => 7
  | .rParen => 8
  | _ => 0

def From (rank : Nat) (rest : List Token) : Prop :=
  ∀ token ∈ rest.head?, rank ≤ clauseRank token

theorem From.mono {low high : Nat} {rest : List Token} (starts : From high rest)
    (below : low ≤ high) : From low rest :=
  fun token first => below.trans (starts token first)

theorem from_cons {rank : Nat} {token : Token} {rest : List Token}
    (above : rank ≤ clauseRank token) : From rank (token :: rest) := by
  rintro _ ⟨⟩
  exact above

theorem From.not_head {rank : Nat} {rest : List Token} (starts : From rank rest) {token : Token}
    (other : clauseRank token < rank) : rest.head? ≠ some token := by
  intro first
  exact absurd (starts token first) (by omega)

theorem Closes.from {rest : List Token} (closes : Closes rest) : From 8 rest := by
  intro token first
  rw [closes token first]
  exact le_rfl

/-- No expression goes on with what separates clauses. -/
theorem From.stops {rest : List Token} (starts : From 1 rest) (level : Nat) :
    Stops level rest := by
  intro token first own known
  have ranked := starts token first
  have nonzero : clauseRank token ≠ 0 := by omega
  cases token with
  | keyword word => cases word <;> first | exact absurd rfl nonzero | cases known
  | _ => first | exact absurd rfl nonzero | cases known

/-- What follows a clause that may be missing. -/
theorem from_append {rank : Nat} {tokens rest : List Token}
    (own : tokens = [] ∨ ∃ token later, tokens = token :: later ∧ rank ≤ clauseRank token)
    (starts : From rank rest) : From rank (tokens ++ rest) := by
  rcases own with rfl | ⟨token, later, rfl, above⟩
  · exact starts
  · exact from_cons above

section Clauses

variable {rules : TextRules} {rounds : Nat} {nested : Nested} {bound : Nat}

/-! ## Lists -/

theorem reads_commaLoop
    {Item : Type}
    {item : Parser Item}
    {tokensOf : Item → List Token}
    {follows : List Token → Prop}
    (items : List Item)
    (some : items ≠ [])
    (each : ∀ entry ∈ items, Reads item (tokensOf entry) (From 1) entry)
    (quiet : ∀ rest, follows rest → From 1 rest ∧ rest.head? ≠ Option.some .comma)
    (number : Nat)
    (fits : items.length ≤ number)
    (read : List Item) :
    Reads (loop exhausted (commaRound item) number read) (commaTokens (items.map tokensOf))
      follows (read ++ items) := by
  induction items generalizing number read with
  | nil => exact absurd rfl some
  | cons entry items inductionHypothesis =>
      have own := each entry List.mem_cons_self
      cases items with
      | nil =>
          refine reads_loop_end (by simp at fits; omega) ?_
          refine Reads.bind_end (own.mono fun rest allowed => (quiet rest allowed).1) ?_
          exact Reads.bind_end (reads_eatToken_none fun rest allowed => (quiet rest allowed).2)
            (Reads.pure _)
      | cons next items =>
          obtain ⟨number, rfl⟩ : ∃ less, number = less + 1 :=
            ⟨number - 1, by simp at fits; omega⟩
          have round : Reads (commaRound item read) (tokensOf entry ++ [.comma]) (fun _ => True)
              (Sum.inl (read ++ [entry])) := by
            refine Reads.bind own (fun rest _ => from_cons le_rfl) ?_
            exact Reads.bind_end (reads_eatToken .comma) (Reads.pure _)
          have later := inductionHypothesis (by simp)
            (fun other listed => each other (List.mem_cons_of_mem entry listed)) number
            (by simpa using fits) (read ++ [entry])
          have joined := reads_loop_round round (fun _ _ => trivial) later
          rw [List.append_assoc] at joined
          simpa [commaTokens] using joined

theorem length_commaTokens
    {Item : Type}
    (tokensOf : Item → List Token)
    (items : List Item)
    (each : ∀ entry ∈ items, tokensOf entry ≠ []) :
    items.length ≤ (commaTokens (items.map tokensOf)).length := by
  induction items with
  | nil => simp
  | cons entry items inductionHypothesis =>
      have own := List.length_pos_iff.mpr (each entry List.mem_cons_self)
      have later := inductionHypothesis fun other listed =>
        each other (List.mem_cons_of_mem entry listed)
      cases items with
      | nil =>
          simp only [List.map, commaTokens, List.length_singleton]
          omega
      | cons next items =>
          simp only [List.map_cons, commaTokens, List.length_append, List.length_cons] at later ⊢
          omega

theorem reads_commaList
    {Item : Type}
    {item : Parser Item}
    {tokensOf : Item → List Token}
    {follows : List Token → Prop}
    {items : List Item}
    (some : items ≠ [])
    (each : ∀ entry ∈ items, Reads item (tokensOf entry) (From 1) entry)
    (nonempty : ∀ entry ∈ items, tokensOf entry ≠ [])
    (quiet : ∀ rest, follows rest → From 1 rest ∧ rest.head? ≠ Option.some .comma)
    (fits : (commaTokens (items.map tokensOf)).length ≤ rounds) :
    Reads (commaList rounds item) (commaTokens (items.map tokensOf)) follows items := by
  have read := reads_commaLoop items some each quiet rounds
    ((length_commaTokens tokensOf items nonempty).trans fits) []
  rw [List.nil_append] at read
  exact read

theorem columnTokens_ne_nil (ref : ColumnRef) : columnTokens ref ≠ [] := by
  obtain ⟨_ | table, name⟩ := ref <;> simp [columnTokens]

/-! ## Clauses without expressions -/

theorem reads_columnItem (ref : ColumnRef) :
    Reads (expectColumnRef rules) (columnTokens ref) (From 1) ref :=
  (reads_expectColumnRef ref).mono fun _ starts => starts.not_head (by decide)

theorem from_groupTokens {rank : Nat} {rest : List Token} (low : rank ≤ 4)
    (groupBy : List ColumnRef) (starts : From rank rest) :
    From rank (groupTokens groupBy ++ rest) := by
  refine from_append ?_ starts
  unfold groupTokens
  split
  · exact .inl rfl
  · exact .inr ⟨_, _, rfl, low⟩

theorem reads_groupBy
    (groupBy : List ColumnRef)
    (fits : (groupTokens groupBy).length ≤ rounds) :
    Reads (optionalGroupBy rules rounds) (groupTokens groupBy) (From 5) groupBy := by
  unfold groupTokens at fits ⊢
  split
  case isTrue none =>
    rw [none]
    exact Reads.bind_end
      (reads_eatToken_none fun rest starts => starts.not_head (by decide)) (Reads.pure _)
  case isFalse some =>
    rw [if_neg some, List.length_cons, List.length_cons] at fits
    refine Reads.token_then (reads_eatToken _) ?_
    refine Reads.token_then (reads_expectKeyword .by_) ?_
    exact reads_commaList some (fun ref _ => reads_columnItem ref)
      (fun ref _ => columnTokens_ne_nil ref)
      (fun rest starts => ⟨starts.mono (by decide), starts.not_head (by decide)⟩) (by omega)

theorem reads_orderKey (key : OrderKey) :
    Reads (orderKey rules) (orderKeyTokens key) (From 1) key := by
  obtain ⟨column, _ | _⟩ := key
  · unfold orderKeyTokens
    rw [if_neg Bool.false_ne_true, List.append_nil]
    refine Reads.bind_end (reads_columnItem column) (Reads.bind_end (reads_eat_none ?_)
      (Reads.pure _))
    intro rest starts token first
    have ranked := starts token first
    have notDesc : token ≠ .keyword .desc := by
      rintro rfl
      exact absurd ranked (by decide)
    have notAsc : token ≠ .keyword .asc := by
      rintro rfl
      exact absurd ranked (by decide)
    simp [notDesc, notAsc]
  · unfold orderKeyTokens
    rw [if_pos rfl]
    refine Reads.bind (reads_expectColumnRef column) (fun rest _ => by simp) ?_
    exact Reads.bind_end (reads_eat rfl) (Reads.pure _)

theorem from_orderTokens {rank : Nat} {rest : List Token} (low : rank ≤ 6)
    (orderBy : List OrderKey) (starts : From rank rest) :
    From rank (orderTokens orderBy ++ rest) := by
  refine from_append ?_ starts
  unfold orderTokens
  split
  · exact .inl rfl
  · exact .inr ⟨_, _, rfl, low⟩

theorem reads_orderBy
    (orderBy : List OrderKey)
    (fits : (orderTokens orderBy).length ≤ rounds) :
    Reads (optionalOrderBy rules rounds) (orderTokens orderBy) (From 7) orderBy := by
  unfold orderTokens at fits ⊢
  split
  case isTrue none =>
    rw [none]
    exact Reads.bind_end
      (reads_eatToken_none fun rest starts => starts.not_head (by decide)) (Reads.pure _)
  case isFalse some =>
    rw [if_neg some, List.length_cons, List.length_cons] at fits
    refine Reads.token_then (reads_eatToken _) ?_
    refine Reads.token_then (reads_expectKeyword .by_) ?_
    refine reads_commaList some (fun key _ => reads_orderKey key) (fun key _ => ?_)
      (fun rest starts => ⟨starts.mono (by decide), starts.not_head (by decide)⟩) (by omega)
    exact List.append_ne_nil_of_left_ne_nil (columnTokens_ne_nil key.column) _

theorem reads_expectCount
    {follows : List Token → Prop}
    (clause : String)
    {count : UInt64}
    (small : count < 0x8000000000000000) :
    Reads (expectCount rules clause) [countToken count] follows count := by
  have fits : count.toNat < 2 ^ 63 := UInt64.lt_iff_toNat_lt.mp small
  have number : (Int64.ofNat count.toNat).toInt = count.toNat := Int64.toInt_ofNat_of_lt fits
  have nonnegative : 0 ≤ Int64.ofNat count.toNat := by
    rw [Int64.le_iff_toInt_le, number]
    exact Int.natCast_nonneg _
  have same : (Int64.ofNat count.toNat).toUInt64 = count := by
    rw [Int64.toUInt64_ofNat', UInt64.ofNat_toNat]
  have taken :
      Reads
        (if 0 ≤ Int64.ofNat count.toNat then pure (Int64.ofNat count.toNat).toUInt64
        else
          throw (.parse (clause ++ " expects a non-negative integer, found " ++
            debugFound rules (some (countToken count)))) : Parser UInt64)
        [] follows count := by
    rw [if_pos nonnegative, same]
    exact Reads.pure _
  exact reads_advance taken

theorem from_limitTokens {rank : Nat} {rest : List Token} {limit offset : Option UInt64}
    (low : rank ≤ 7) (plain : countsPlain limit offset) (starts : From rank rest) :
    From rank (limitTokens limit offset ++ rest) := by
  refine from_append ?_ starts
  cases limit with
  | some count => exact .inr ⟨_, _, rfl, low⟩
  | none =>
      cases offset with
      | none => exact .inl rfl
      | some count => exact plain.elim

theorem reads_limit {limit offset : Option UInt64} (plain : countsPlain limit offset) :
    Reads (optionalLimit rules) (limitTokens limit offset) (From 8) (limit, offset) := by
  cases limit with
  | none =>
      cases offset with
      | some count => exact plain.elim
      | none =>
          exact Reads.bind_end
            (reads_eatToken_none fun rest starts => starts.not_head (by decide)) (Reads.pure _)
  | some limit =>
      refine Reads.token_then (reads_eatToken _) ?_
      cases offset with
      | none =>
          refine Reads.token_then (reads_expectCount _ plain) ?_
          exact Reads.bind_end
            (reads_eatToken_none fun rest starts => starts.not_head (by decide)) (Reads.pure _)
      | some offset =>
          refine Reads.token_then (reads_expectCount _ plain.1) ?_
          refine Reads.token_then (reads_eatToken _) ?_
          exact Reads.bind_end (reads_expectCount _ plain.2) (Reads.pure _)

theorem reads_tableRef (table : TableRef) :
    Reads (tableRef rules) (tableTokens table) (From 1) table := by
  obtain ⟨name, tableAlias⟩ := table
  refine Reads.token_then (reads_expectName name) ?_
  cases tableAlias with
  | none =>
      have noAs : Reads (eatKeyword .as) [] (From 1) false :=
        reads_eatToken_none fun rest starts => starts.not_head (by decide)
      refine Reads.bind_end (Reads.bind_end noAs (reads_eat_none ?_)) (Reads.pure _)
      intro rest starts token first
      have ranked := starts token first
      cases token with
      | ident name => exact absurd ranked (Nat.not_succ_le_zero 0)
      | _ => rfl
  | some other =>
      refine Reads.bind_end ?_ (Reads.pure _)
      refine Reads.token_then (reads_eatToken _) ?_
      exact Reads.bind_end (reads_expectName other) (Reads.pure _)

/-! ## Clauses with an expression -/

theorem reads_expr
    (deeper : nested.Reads bound)
    (fits : bound + 2 ≤ rounds)
    {expr : Expr}
    (plain : expr.Plain)
    (short : expr.tokens.length ≤ bound) :
    Reads (Parser.expr rules rounds nested) expr.tokens (Stops 0) expr := by
  have begins := tokens_begin expr plain
  have reads : ReadsAt rules rounds nested 0 expr.tokens expr :=
    readsAt_down begins.some (by omega) (Nat.zero_le _) (level_le expr) begins.starts
      (own deeper fits expr plain short).reads
  exact reads rounds (by omega)

theorem from_clauseTokens {rank : Nat} {rest : List Token} (word : Keyword)
    (low : rank ≤ clauseRank (.keyword word)) (predicate : Option Expr)
    (starts : From rank rest) :
    From rank (clauseTokens word predicate ++ rest) := by
  refine from_append ?_ starts
  cases predicate with
  | none =>
      rw [clauseTokens]
      exact .inl rfl
  | some predicate =>
      rw [clauseTokens]
      exact .inr ⟨_, _, rfl, low⟩

theorem reads_clause
    (deeper : nested.Reads bound)
    (fits : bound + 2 ≤ rounds)
    (word : Keyword)
    {predicate : Option Expr}
    (plain : plainOption predicate)
    (short : (clauseTokens word predicate).length ≤ bound) :
    Reads (optionalClause rules rounds nested word) (clauseTokens word predicate)
      (From (clauseRank (.keyword word) + 1)) predicate := by
  cases predicate with
  | none =>
      rw [clauseTokens]
      exact Reads.bind_end
        (reads_eatToken_none fun rest starts => starts.not_head (Nat.lt_succ_self _))
        (Reads.pure _)
  | some predicate =>
      rw [plainOption] at plain
      rw [clauseTokens] at short ⊢
      rw [List.length_cons] at short
      have read : Reads (Parser.expr rules rounds nested) predicate.tokens (Stops 0) predicate :=
        reads_expr deeper fits plain (Nat.le_of_succ_le short)
      refine Reads.token_then (reads_eatToken _) (Reads.bind_end (read.mono ?_) (Reads.pure _))
      exact fun rest starts => (starts.mono (Nat.succ_le_succ (Nat.zero_le _))).stops 0

/-! ## Joins -/

theorem plain_join {join : Join Expr} (plain : Join.Plain join) :
    join.kind = .cross ∧ join.on = none ∨
      (join.kind = .inner ∨ join.kind = .left) ∧ ∃ on, join.on = some on ∧ on.Plain := by
  obtain ⟨_ | _ | _ | _ | _, table, _ | on⟩ := join <;> rw [Join.Plain] at plain
  case inner.some => exact .inr ⟨.inl rfl, on, rfl, plain⟩
  case left.some => exact .inr ⟨.inr rfl, on, rfl, plain⟩
  case cross.none => exact .inl ⟨rfl, rfl⟩
  all_goals exact plain.elim

theorem from_joins {rank : Nat} {rest : List Token} (low : rank ≤ 2) (joins : List (Join Expr))
    (plain : plainJoins joins) (starts : From rank rest) :
    From rank (tokensOfJoins joins ++ rest) := by
  refine from_append ?_ starts
  cases joins with
  | nil =>
      rw [tokensOfJoins]
      exact .inl rfl
  | cons join joins =>
      rw [plainJoins] at plain
      have known := plain_join plain.1
      obtain ⟨kind, table, on⟩ := join
      rw [tokensOfJoins, Join.tokens]
      rcases known with ⟨rfl, -⟩ | ⟨rfl | rfl, -⟩ <;> exact .inr ⟨_, _, rfl, low⟩

theorem reads_joinKind {kind : JoinKind} (some : joinTokens kind ≠ [])
    {follows : List Token → Prop} :
    Reads (joinKind rules) (joinTokens kind) follows (Option.some kind) := by
  cases kind with
  | inner => exact Reads.bind_end (reads_eat rfl) (Reads.pure _)
  | left | cross =>
      refine Reads.token_then (reads_eat rfl) ?_
      exact Reads.bind_end (reads_expectKeyword .join) (Reads.pure _)
  | semi | anti => exact absurd rfl some

theorem reads_joinOn
    (deeper : nested.Reads bound)
    (fits : bound + 2 ≤ rounds)
    {join : Join Expr}
    (plain : Join.Plain join)
    (short : (clauseTokens .on join.on).length ≤ bound) :
    Reads (joinOn rules rounds nested join.kind) (clauseTokens .on join.on) (From 2) join.on := by
  unfold joinOn
  rcases plain_join plain with ⟨cross, none⟩ | ⟨other, on, some, plainOn⟩
  · rw [if_pos cross, none, clauseTokens]
    exact Reads.pure _
  · have notCross : join.kind ≠ .cross := by
      rcases other with inner | left <;> simp [*]
    rw [some, clauseTokens, List.length_cons] at short
    rw [if_neg notCross, some, clauseTokens]
    have read : Reads (Parser.expr rules rounds nested) on.tokens (Stops 0) on :=
      reads_expr deeper fits plainOn (Nat.le_of_succ_le short)
    refine Reads.token_then (reads_expectKeyword .on) (Reads.bind_end (read.mono ?_) (Reads.pure _))
    exact fun rest starts => (starts.mono (by decide)).stops 0

theorem tokens_join (join : Join Expr) :
    Join.tokens join =
      joinTokens join.kind ++ (tableTokens join.table ++ clauseTokens .on join.on) := by
  obtain ⟨kind, table, on⟩ := join
  rw [Join.tokens, List.append_assoc]

theorem joinTokens_ne_nil {join : Join Expr} (plain : Join.Plain join) :
    joinTokens join.kind ≠ [] := by
  rcases plain_join plain with ⟨kind, -⟩ | ⟨kind | kind, -⟩ <;> simp [kind, joinTokens]

theorem reads_joinRound
    (deeper : nested.Reads bound)
    (fits : bound + 2 ≤ rounds)
    {join : Join Expr}
    (plain : Join.Plain join)
    (short : (Join.tokens join).length ≤ bound)
    (read : List (Join Expr)) :
    Reads (joinRound rules rounds nested read) (Join.tokens join) (From 2)
      (Sum.inl (read ++ [join])) := by
  rw [tokens_join, List.length_append, List.length_append] at short
  rw [tokens_join]
  have kind : Reads (joinKind rules) (joinTokens join.kind) (fun _ => True) (some join.kind) :=
    reads_joinKind (joinTokens_ne_nil plain)
  refine Reads.bind kind (fun _ _ => trivial) ?_
  refine Reads.bind (reads_tableRef join.table) (fun rest starts => ?_) ?_
  · exact from_clauseTokens .on le_rfl join.on (starts.mono (by decide))
  exact Reads.bind_end (reads_joinOn deeper fits plain (by omega)) (Reads.pure _)

theorem reads_joins
    (deeper : nested.Reads bound)
    (fits : bound + 2 ≤ rounds)
    (joins : List (Join Expr))
    (plain : plainJoins joins)
    (short : (tokensOfJoins joins).length ≤ bound)
    (number : Nat)
    (enough : (tokensOfJoins joins).length < number)
    (read : List (Join Expr)) :
    Reads (loop exhausted (joinRound rules rounds nested) number read) (tokensOfJoins joins)
      (From 3) (read ++ joins) := by
  induction joins generalizing number read with
  | nil =>
      rw [tokensOfJoins] at enough ⊢
      rw [List.append_nil]
      refine reads_loop_end enough ?_
      have noKind : Reads (joinKind rules) [] (From 3) none := by
        refine Reads.bind_end (reads_eat_none ?_) (Reads.pure _)
        intro rest starts token first
        have ranked := starts token first
        have other (word : Keyword) (low : clauseRank (.keyword word) < 3) :
            token ≠ .keyword word := by
          rintro rfl
          omega
        simp [other .join (by decide), other .inner (by decide), other .left (by decide),
          other .cross (by decide)]
      exact Reads.bind_end noKind (Reads.pure _)
  | cons join joins inductionHypothesis =>
      rw [plainJoins] at plain
      obtain ⟨number, rfl⟩ : ∃ less, number = less + 1 := ⟨number - 1, by omega⟩
      rw [tokensOfJoins, List.length_append] at short enough
      have some : (Join.tokens join).length ≠ 0 := by
        have kind := List.length_pos_iff.mpr (joinTokens_ne_nil plain.1)
        rw [tokens_join, List.length_append]
        omega
      have later := inductionHypothesis plain.2 (by omega) number (by omega) (read ++ [join])
      rw [List.append_assoc, List.singleton_append] at later
      rw [tokensOfJoins]
      refine reads_loop_round (reads_joinRound deeper fits plain.1 (by omega) read)
        (fun rest starts => ?_) later
      exact from_joins le_rfl joins plain.2 (starts.mono (by decide))

theorem reads_from
    (deeper : nested.Reads bound)
    (fits : bound + 2 ≤ rounds)
    {source : FromClause Expr}
    (plain : FromClause.Plain source)
    (short : (FromClause.tokens source).length ≤ bound) :
    Reads (parseFrom rules rounds nested) (FromClause.tokens source) (From 3) source := by
  obtain ⟨table, joins⟩ := source
  rw [FromClause.Plain] at plain
  rw [FromClause.tokens, List.length_append] at short
  rw [FromClause.tokens]
  have read : Reads (loop exhausted (joinRound rules rounds nested) rounds [])
      (tokensOfJoins joins) (From 3) ([] ++ joins) :=
    reads_joins deeper fits joins plain (by omega) rounds (by omega) []
  refine Reads.bind (reads_tableRef table) (fun rest starts => ?_)
    (Reads.bind_end read (Reads.pure _))
  exact from_joins (by decide) joins plain (starts.mono (by decide))

/-! ## What is selected -/

theorem tokensOfItems_eq (items : List SelectItem) :
    tokensOfItems items = items.map SelectItem.tokens := by
  induction items with
  | nil => rfl
  | cons item items inductionHypothesis =>
      rw [tokensOfItems, inductionHypothesis, List.map_cons]

theorem plainSelection_iff (items : List SelectItem) :
    plainSelection items ↔ ∀ item ∈ items, item.Plain := by
  induction items with
  | nil => simp [plainSelection]
  | cons item items inductionHypothesis =>
      rw [plainSelection, inductionHypothesis, List.forall_mem_cons]

theorem item_expr {item : SelectItem} (plain : item.Plain) :
    ∃ expr : Expr, expr.Plain ∧ expr.tokens = item.tokens ∧ selectItem expr = item := by
  cases item with
  | column ref =>
      exact ⟨.column ref, by simp [Expr.Plain], by rw [Expr.tokens, SelectItem.tokens], rfl⟩
  | aggregate call =>
      exact ⟨.aggregate call, by simp [Expr.Plain], by rw [Expr.tokens, SelectItem.tokens], rfl⟩
  | expr expr =>
      rw [SelectItem.Plain] at plain
      refine ⟨expr, plain.1, by rw [SelectItem.tokens], ?_⟩
      cases expr with
      | column | aggregate => exact plain.2.elim
      | _ => rfl

theorem length_le_commaTokens {tokens : List Token} {lists : List (List Token)}
    (listed : tokens ∈ lists) : tokens.length ≤ (commaTokens lists).length := by
  induction lists with
  | nil => cases listed
  | cons first lists inductionHypothesis =>
      cases lists with
      | nil =>
          rw [List.mem_singleton] at listed
          rw [listed, commaTokens]
      | cons next lists =>
          simp only [commaTokens, List.length_append, List.length_cons]
          rcases List.mem_cons.mp listed with rfl | later
          · omega
          · have longer := inductionHypothesis later
            omega

theorem head_commaTokens {first : List Token} (some : first ≠ []) (lists : List (List Token))
    (rest : List Token) :
    (commaTokens (first :: lists) ++ rest).head? = first.head? := by
  cases lists with
  | nil => exact List.head?_append_of_ne_nil first some
  | cons next lists =>
      rw [commaTokens, List.append_assoc]
      · exact List.head?_append_of_ne_nil first some
      · nofun

theorem reads_projection
    (deeper : nested.Reads bound)
    (fits : bound + 2 ≤ rounds)
    {projection : Projection}
    (plain : projection.Plain)
    (short : projection.tokens.length ≤ bound) :
    Reads (Parser.projection rules rounds nested) projection.tokens
      (fun rest => rest.head? = some (.keyword .from_)) projection := by
  cases projection with
  | all =>
      rw [Projection.tokens]
      exact Reads.bind_end (reads_eatToken .star) (Reads.pure _)
  | items items =>
      rw [Projection.Plain, plainSelection_iff] at plain
      rw [Projection.tokens, tokensOfItems_eq] at short ⊢
      have each (item : SelectItem) (listed : item ∈ items) :
          Reads
            (do
              let item ← Parser.expr rules rounds nested
              pure (selectItem item))
            item.tokens (From 1) item := by
        obtain ⟨expr, plainExpr, same, made⟩ := item_expr (plain.2 item listed)
        have length := length_le_commaTokens (List.mem_map_of_mem (f := SelectItem.tokens) listed)
        rw [← same] at length ⊢
        have read : Reads (Parser.expr rules rounds nested) expr.tokens (Stops 0) expr :=
          reads_expr deeper fits plainExpr (by omega)
        refine Reads.bind_end (read.mono fun rest starts => starts.stops 0) ?_
        rw [made]
        exact Reads.pure _
      have begins (item : SelectItem) (listed : item ∈ items) :
          ∃ level, Begins level item.tokens := by
        obtain ⟨expr, plainExpr, same, -⟩ := item_expr (plain.2 item listed)
        rw [← same]
        exact ⟨_, tokens_begin expr plainExpr⟩
      refine Reads.nothing_then (reads_eatToken_other .star) (fun rest _ => ?_) ?_
      · obtain ⟨first, later, rfl⟩ := List.exists_cons_of_ne_nil plain.1
        obtain ⟨level, begin⟩ := begins first List.mem_cons_self
        rw [List.map_cons, head_commaTokens begin.some]
        exact begin.noStar
      · refine Reads.bind_end (reads_commaList plain.1 each (fun item listed => ?_)
          (fun rest next => ?_) (by omega)) (Reads.pure _)
        · obtain ⟨level, begin⟩ := begins item listed
          exact begin.some
        · refine ⟨fun token first => ?_, fun comma => ?_⟩
          · rw [next] at first
            obtain rfl := Option.some_inj.mp first
            exact le_rfl
          · rw [next] at comma
            cases comma

/-! ## The `SELECT` -/

theorem reads_select
    (deeper : nested.Reads bound)
    (fits : bound + 2 ≤ rounds)
    {select : Statement}
    (plain : select.Plain)
    (short : select.tokens.length ≤ bound + 1) :
    Reads (Parser.select rules rounds nested) select.tokens Closes select := by
  cases select with
  | select source projection filter groupBy having orderBy limit offset =>
      rw [Statement.Plain] at plain
      obtain ⟨plainFrom, plainSelection, plainFilter, plainHaving, plainLimit⟩ := plain
      rw [Statement.tokens] at short ⊢
      simp only [List.length_cons, List.length_append] at short
      have limits (rest : List Token) (closes : Closes rest) :
          From 7 (limitTokens limit offset ++ rest) :=
        from_limitTokens le_rfl plainLimit (closes.from.mono (by decide))
      have orders (rest : List Token) (closes : Closes rest) :
          From 6 (orderTokens orderBy ++ (limitTokens limit offset ++ rest)) :=
        from_orderTokens le_rfl orderBy ((limits rest closes).mono (by decide))
      have havings (rest : List Token) (closes : Closes rest) :
          From 5 (clauseTokens .having having ++
            (orderTokens orderBy ++ (limitTokens limit offset ++ rest))) :=
        from_clauseTokens .having le_rfl having ((orders rest closes).mono (by decide))
      have groups (rest : List Token) (closes : Closes rest) :
          From 4 (groupTokens groupBy ++ (clauseTokens .having having ++
            (orderTokens orderBy ++ (limitTokens limit offset ++ rest)))) :=
        from_groupTokens le_rfl groupBy ((havings rest closes).mono (by decide))
      have filters (rest : List Token) (closes : Closes rest) :
          From 3 (clauseTokens .where_ filter ++ (groupTokens groupBy ++
            (clauseTokens .having having ++
              (orderTokens orderBy ++ (limitTokens limit offset ++ rest))))) :=
        from_clauseTokens .where_ le_rfl filter ((groups rest closes).mono (by decide))
      refine Reads.token_then (reads_expectKeyword .select) ?_
      refine Reads.bind (reads_projection deeper fits plainSelection (by omega)) (fun _ _ => rfl) ?_
      refine Reads.token_then (reads_expectKeyword .from_) ?_
      refine Reads.bind (reads_from deeper fits plainFrom (by omega)) ?_ ?_
      · intro rest closes
        simp only [List.append_assoc]
        exact filters rest closes
      refine Reads.bind (reads_clause deeper fits .where_ plainFilter (by omega)) ?_ ?_
      · intro rest closes
        simp only [List.append_assoc]
        exact groups rest closes
      refine Reads.bind (reads_groupBy groupBy (by omega)) ?_ ?_
      · intro rest closes
        simp only [List.append_assoc]
        exact havings rest closes
      refine Reads.bind (reads_clause deeper fits .having plainHaving (by omega)) ?_ ?_
      · intro rest closes
        simp only [List.append_assoc]
        exact orders rest closes
      refine Reads.bind (reads_orderBy orderBy (by omega)) limits ?_
      exact Reads.bind_end ((reads_limit plainLimit).mono fun rest closes => closes.from)
        (Reads.pure _)
  | _ =>
      rw [Statement.Plain] at plain
      · exact plain.elim
      all_goals (intros; contradiction)

theorem reads_statement
    (deeper : nested.Reads bound)
    (fits : bound + 2 ≤ rounds)
    {statement : Statement}
    (plain : statement.Plain)
    (short : statement.tokens.length ≤ bound + 1) :
    Reads (Parser.statement rules rounds nested) statement.tokens Closes statement := by
  obtain ⟨rest, selects⟩ := plain_selects plain
  have read : Reads (Parser.select rules rounds nested) statement.tokens Closes statement :=
    reads_select deeper fits plain short
  rw [selects] at read ⊢
  exact reads_peek read

end Clauses

/-! ## The whole grammar -/

theorem grammar_reads
    (rules : TextRules)
    (rounds bound depth : Nat)
    (deep : bound ≤ depth)
    (fits : bound + 1 ≤ rounds) :
    (grammar rules rounds depth).Reads bound := by
  induction bound generalizing depth with
  | zero => exact ⟨fun _ _ short => absurd short (Nat.not_lt_zero _),
      fun _ _ short => absurd short (Nat.not_lt_zero _)⟩
  | succ bound inductionHypothesis =>
      obtain ⟨depth, rfl⟩ : ∃ less, depth = less + 1 := ⟨depth - 1, by omega⟩
      have deeper := inductionHypothesis depth (by omega) (by omega)
      constructor
      · intro expr plain short
        exact reads_expr deeper fits plain (Nat.le_of_lt_succ short)
      · intro statement plain short
        exact reads_statement deeper fits plain (Nat.le_of_lt short)

/--
The text of an expression with only the parentheses that precedence asks for is
lexed and parsed to the expression again, and nothing of the text is left.
-/
theorem expression_reads_back
    (rules : TextRules)
    (expr : Expr)
    (written : expr.Written rules)
    (depth : Nat)
    (deep : expr.tokens.length + 2 ≤ depth) :
    tokenize rules (String.ofList (spaced expr.tokens)) = .ok expr.tokens ∧
      ∀ memory,
        (grammar rules depth depth).expr { tokens := expr.tokens, memory } =
          .ok (expr, { tokens := [], memory }) := by
  constructor
  · refine tokenize_eq ?_
    rw [String.toList_ofList]
    exact (spells_spaced (tokens_begin expr written.plain).some written.leaves).lexes
  · intro memory
    have reads := (grammar_reads rules depth (expr.tokens.length + 1) depth (by omega)
      (by omega)).expr expr written.plain (Nat.lt_succ_self _)
    have read := reads [] memory (by simp [Stops])
    rw [List.append_nil] at read
    exact read

def notInSample : Expr :=
  .unary .not (.binary (.logic .or) (.column ⟨none, "x"⟩)
    (.inSubquery (.unary .neg (.integer 1))
      (.select ⟨⟨"t", none⟩, []⟩ (.items [.column ⟨none, "x"⟩]) none [] none [] none none) true))

theorem notInSample_written : notInSample.Written asciiRules := by
  have name (letter : Char) (known : letter = 'x' ∨ letter = 't') :
      IsName asciiRules (String.ofList [letter]) := by
    refine ⟨⟨letter, [], ?_, List.forall_mem_singleton.mpr ?_, ?_⟩, by simp [Identifier.name]⟩ <;>
      rcases known with rfl | rfl <;> decide
  have tokens : notInSample.tokens =
      [.keyword .not, .lParen, .ident "x", .keyword .or, .minus, .integer 1, .keyword .not,
        .keyword .in_, .lParen, .keyword .select, .ident "x", .keyword .from_, .ident "t",
        .rParen, .rParen] := by
    decide +kernel
  refine ⟨?_, ?_⟩
  · simp [notInSample, Expr.Plain, Statement.Plain, FromClause.Plain, plainJoins,
      Projection.Plain, plainSelection, SelectItem.Plain, plainOption, countsPlain]
  · rw [tokens]
    simp only [List.forall_mem_cons, Token.Written, List.not_mem_nil]
    simp [name 'x' (.inl rfl), name 't' (.inr rfl)]

/-- A negated membership test under an `OR`. -/
theorem notInSample_reads_back :
    tokenize asciiRules "NOT ( x OR - 1 NOT IN ( SELECT x FROM t ) )" = .ok notInSample.tokens ∧
      ∀ memory,
        (grammar asciiRules 20 20).expr { tokens := notInSample.tokens, memory } =
          .ok (notInSample, { tokens := [], memory }) := by
  have text : String.ofList (spaced notInSample.tokens) =
      "NOT ( x OR - 1 NOT IN ( SELECT x FROM t ) )" := by
    decide +kernel
  rw [← text]
  exact expression_reads_back asciiRules notInSample notInSample_written 20 (by decide +kernel)

end PrehniteDB.Sql
