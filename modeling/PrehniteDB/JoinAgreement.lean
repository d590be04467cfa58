import Mathlib.Data.List.Flatten
import PrehniteDB.IndexAccess
import PrehniteDB.Joins
import PrehniteDB.KeyedBuckets

namespace PrehniteDB.Joins

open ReadPaths (ColumnType JoinKind batchSize prefixUpperBound)
open AccessPaths (Schema Index)

/-!
# The join operators against the nested loop

Every operator looks only at a part of the inner rows, the bucket or the index
range of the left row's key.  An accepted pair outside that part is a pair of
crossed zeros.
-/

variable {Query : Type}

/-! ## Equality keys -/

/-- The two values have one encoding, and neither is `NULL`. -/
def sameKey (probeCol buildCol : Nat) (left right : Row) : Bool :=
  !(column left probeCol).isNull && !(column right buildCol).isNull &&
    decide (encodeIndexValue (column left probeCol) = encodeIndexValue (column right buildCol))

theorem encodeIndexValue_injective
    {left right : Value}
    (same : encodeIndexValue left = encodeIndexValue right) :
    left = right := by
  refine (@encodeIndexValue_append_inj left right [] [] ?_).1
  rw [same]

/-- Two rows share a key where their columns are equal and not `NULL`. -/
theorem sameKey_iff
    {probeCol buildCol : Nat}
    {left right : Row} :
    sameKey probeCol buildCol left right = true ↔
      column left probeCol = column right buildCol ∧ column left probeCol ≠ .null := by
  simp only [sameKey, Bool.and_eq_true, Bool.not_eq_true', Value.isNull, decide_eq_false_iff_not,
    decide_eq_true_eq]
  constructor
  · rintro ⟨⟨present, _⟩, same⟩
    exact ⟨encodeIndexValue_injective same, present⟩
  · rintro ⟨same, present⟩
    exact ⟨⟨present, same ▸ present⟩, by rw [same]⟩

theorem column_append_left
    {left right : Row}
    {position : Nat}
    (bound : position < left.length) :
    column (left ++ right) position = column left position := by
  simp only [column, List.getD_eq_getElem?_getD]
  rw [List.getElem?_append_left bound]

theorem column_append_right (left right : Row) (position : Nat) :
    column (left ++ right) (left.length + position) = column right position := by
  simp only [column, List.getD_eq_getElem?_getD]
  rw [List.getElem?_append_right (Nat.le_add_right _ _), Nat.add_sub_cancel_left]

/-- A column equality found by the planner, and what it is when a row passes it. -/
theorem equiSides_spec
    {scope : Scope}
    {leftLen : Nat}
    {left right : Expr Query}
    {key : ColumnRef}
    {keyAt inner : Nat}
    (found : equiSides scope leftLen left right = some (key, keyAt, inner)) :
    keyAt < leftLen ∧ scope.resolve key = .ok keyAt ∧
      (scope[keyAt]?).map ScopedColumn.type = (scope[leftLen + inner]?).map ScopedColumn.type ∧
      ∀ values,
        eval scope values (.binary (.comparison .eq) left right) = .ok (.bool true) →
          (column values keyAt).compareWith (column values (leftLen + inner)) = .ok .eq := by
  unfold equiSides at found
  split at found
  case h_2 => cases found
  case h_1 leftRef rightRef =>
    cases leftResolved : scope.resolve leftRef with
    | error error => simp [leftResolved, Except.toOption] at found
    | ok leftAt =>
        cases rightResolved : scope.resolve rightRef with
        | error error => simp [leftResolved, rightResolved, Except.toOption] at found
        | ok rightAt =>
            have compared {values : Row}
                (passes : eval scope values
                  (.binary (.comparison .eq) (.column leftRef) (.column rightRef) : Expr Query) =
                    .ok (.bool true)) :
                (column values leftAt).compareWith (column values rightAt) = .ok .eq := by
              obtain ⟨leftValue, rightValue, evalLeft, evalRight, verdict⟩ :=
                AccessPaths.eval_binary_ok passes
              obtain ⟨_, leftIndex, rfl⟩ := AccessPaths.eval_column_ok evalLeft
              obtain ⟨_, rightIndex, rfl⟩ := AccessPaths.eval_column_ok evalRight
              obtain rfl := Except.ok.inj (leftIndex.symm.trans leftResolved)
              obtain rfl := Except.ok.inj (rightIndex.symm.trans rightResolved)
              obtain ⟨ordering, same, accepts⟩ := AccessPaths.compareOp_true verdict
              rw [same, of_decide_eq_true accepts]
            simp only [leftResolved, rightResolved, Except.toOption, Option.bind_eq_bind,
              Option.bind_some] at found
            by_cases straight : leftAt < leftLen ∧ leftLen ≤ rightAt
            · simp only [if_pos straight, Option.ite_none_right_eq_some, Option.some.injEq,
                Prod.mk.injEq] at found
              obtain ⟨types, rfl, rfl, rfl⟩ := found
              have position : leftLen + (rightAt - leftLen) = rightAt := by omega
              rw [position]
              exact ⟨straight.1, leftResolved, types, fun values => compared⟩
            · by_cases turned : rightAt < leftLen ∧ leftLen ≤ leftAt
              · simp only [if_neg straight, if_pos turned, Option.ite_none_right_eq_some,
                  Option.some.injEq, Prod.mk.injEq] at found
                obtain ⟨types, rfl, rfl, rfl⟩ := found
                have position : leftLen + (leftAt - leftLen) = leftAt := by omega
                rw [position]
                exact ⟨turned.1, rightResolved, types, fun values passes =>
                  Value.compareWith_swap (compared passes)⟩
              · simp [if_neg straight, if_neg turned] at found

/-- A row that passes the predicate passes the equality that was found in it. -/
theorem findEquality_true
    {Found : Type}
    {serves : Expr Query → Expr Query → Option Found}
    {on : Expr Query}
    {found : Found}
    (picked : findEquality serves on = some found)
    (scope : Scope) :
    ∃ left right,
      serves left right = some found ∧
        ∀ values,
          eval scope values on = .ok (.bool true) →
            eval scope values (.binary (.comparison .eq) left right) = .ok (.bool true) := by
  induction on using findEquality.induct with
  | case1 left right leftHypothesis rightHypothesis =>
      rw [findEquality, Option.or_eq_some_iff] at picked
      rcases picked with inLeft | ⟨_, inRight⟩
      · obtain ⟨first, second, served, passes⟩ := leftHypothesis inLeft
        refine ⟨first, second, served, fun values accepted => passes values ?_⟩
        obtain ⟨leftValue, rightValue, evalLeft, _, verdict⟩ :=
          AccessPaths.eval_binary_ok accepted
        exact (AccessPaths.logic_and_true verdict).1 ▸ evalLeft
      · obtain ⟨first, second, served, passes⟩ := rightHypothesis inRight
        refine ⟨first, second, served, fun values accepted => passes values ?_⟩
        obtain ⟨leftValue, rightValue, _, evalRight, verdict⟩ :=
          AccessPaths.eval_binary_ok accepted
        exact (AccessPaths.logic_and_true verdict).2 ▸ evalRight
  | case2 left right => exact ⟨left, right, picked, fun _ => id⟩
  | case3 other notAnd notEq =>
      rw [findEquality] at picked
      · cases picked
      · exact notAnd
      · exact notEq

/-- The rows of a join, with values of the types of their columns. -/
structure Input (scope : Scope) (leftLen rightWidth : Nat) (left right : List Row) : Prop where
  columns : scope.length = leftLen + rightWidth
  leftWidth : ∀ row ∈ left, row.length = leftLen
  rightWidth : ∀ row ∈ right, row.length = rightWidth
  leftTyped :
    ∀ row ∈ left, ∀ position < leftLen, ∀ entry,
      scope[position]? = some entry → (column row position).fits entry.type = true
  rightTyped :
    ∀ row ∈ right, ∀ position entry,
      scope[leftLen + position]? = some entry →
        (column row position).fits entry.type = true

/-- The left column and the inner one that are compared. -/
structure Keyed
    (scope : Scope)
    (leftLen : Nat)
    (on : Expr Query)
    (probeCol buildCol : Nat) : Prop where
  bound : probeCol < leftLen
  type :
    ∃ outer inner,
      scope[probeCol]? = some outer ∧ scope[leftLen + buildCol]? = some inner ∧
        outer.type = inner.type
  equal :
    ∀ values,
      eval scope values on = .ok (.bool true) →
        (column values probeCol).compareWith (column values (leftLen + buildCol)) = .ok .eq

theorem keyed_of_sides
    {scope : Scope}
    {leftLen : Nat}
    {on left right : Expr Query}
    {key : ColumnRef}
    {keyAt inner : Nat}
    (found : equiSides scope leftLen left right = some (key, keyAt, inner))
    (passes :
      ∀ values,
        eval scope values on = .ok (.bool true) →
          eval scope values (.binary (.comparison .eq) left right) = .ok (.bool true)) :
    Keyed scope leftLen on keyAt inner ∧ scope.resolve key = .ok keyAt := by
  obtain ⟨bound, resolved, types, equal⟩ := equiSides_spec found
  obtain ⟨outer, listed, _⟩ := Scope.resolve_names resolved
  rw [listed] at types
  obtain ⟨entry, innerListed, same⟩ := Option.map_eq_some_iff.mp types.symm
  refine ⟨⟨bound, ⟨outer, entry, listed, innerListed, same.symm⟩, ?_⟩, resolved⟩
  exact fun values accepted => equal values (passes values accepted)

theorem findEquiJoin_keyed
    {scope : Scope}
    {leftLen : Nat}
    {on : Expr Query}
    {probeCol buildCol : Nat}
    (found : findEquiJoin on leftLen scope = some (probeCol, buildCol)) :
    Keyed scope leftLen on probeCol buildCol := by
  obtain ⟨left, right, served, passes⟩ := findEquality_true found scope
  obtain ⟨⟨key, keyAt, inner⟩, sides, same⟩ := Option.map_eq_some_iff.mp served
  cases same
  exact (keyed_of_sides sides passes).1

theorem findIndexJoin_keyed
    {scope : Scope}
    {leftLen : Nat}
    {on : Expr Query}
    {joined : Schema}
    {key : ColumnRef}
    {root : UInt32}
    (found : findIndexJoin on leftLen scope joined = some (key, root)) :
    ∃ keyAt inner,
      Keyed scope leftLen on keyAt inner ∧ scope.resolve key = .ok keyAt ∧
        ∃ index ∈ joined.indexes, index.root = root ∧ index.columns.head? = some inner := by
  obtain ⟨left, right, served, passes⟩ := findEquality_true found scope
  unfold equiJoinIndex at served
  obtain ⟨⟨ref, keyAt, inner⟩, sides, further⟩ := Option.bind_eq_some_iff.mp served
  obtain ⟨index, listed, last⟩ := Option.bind_eq_some_iff.mp further
  cases last
  obtain ⟨keyed, resolved⟩ := keyed_of_sides sides passes
  have leads := List.find?_some listed
  simp only [decide_eq_true_eq] at leads
  exact ⟨keyAt, inner, keyed, resolved, index, List.mem_of_find?_eq_some listed, rfl, leads⟩

section Agreement

variable
  {scope : Scope}
  {leftLen rightWidth : Nat}
  {kind : JoinKind}
  {on : Expr Query}
  {left right : List Row}
  {probeCol buildCol : Nat}

/-- No accepted pair has the two zeros of a `REAL` for its keys. -/
def Uncrossed
    (scope : Scope)
    (on : Expr Query)
    (probeCol buildCol : Nat)
    (left right : List Row) : Prop :=
  ∀ row ∈ left, ∀ inner ∈ right,
    passesFilter (some on) scope (row ++ inner) = .ok true →
      ¬ (column row probeCol).Crossed (column inner buildCol)

/-- The predicate is `TRUE` on the pair. -/
def accepts (scope : Scope) (on : Option (Expr Query)) (left right : Row) : Bool :=
  workerKeeps on scope (left ++ right)

theorem accepts_iff
    {on : Option (Expr Query)}
    {row inner : Row} :
    accepts scope on row inner = true ↔ passesFilter on scope (row ++ inner) = .ok true := by
  unfold accepts workerKeeps
  split
  case h_1 keep verdict => rw [verdict, Except.ok.injEq]
  case h_2 error verdict => simp [verdict]

theorem passesFilter_true
    {values : Row}
    (passes : passesFilter (some on) scope values = .ok true) :
    eval scope values on = .ok (.bool true) := by
  rw [passesFilter] at passes
  cases evaluated : eval scope values on with
  | error error => rw [evaluated] at passes; cases passes
  | ok value =>
      rw [evaluated] at passes
      exact congrArg _ (of_decide_eq_true (Except.ok.inj passes))

theorem Keyed.accepted
    (keyed : Keyed scope leftLen on probeCol buildCol)
    (input : Input scope leftLen rightWidth left right)
    {row inner : Row}
    (rowListed : row ∈ left)
    (innerListed : inner ∈ right)
    (passes : passesFilter (some on) scope (row ++ inner) = .ok true) :
    column inner buildCol ≠ .null ∧
      (sameKey probeCol buildCol row inner = true ↔
        ¬ (column row probeCol).Crossed (column inner buildCol)) := by
  obtain ⟨outerColumn, innerColumn, outerAt, innerAt, types⟩ := keyed.type
  have width := input.leftWidth row rowListed
  have same := keyed.equal _ (passesFilter_true passes)
  rw [column_append_left (width.symm ▸ keyed.bound), ← width, column_append_right] at same
  have rowFits := input.leftTyped row rowListed probeCol keyed.bound outerColumn outerAt
  have innerFits := input.rightTyped inner innerListed buildCol innerColumn innerAt
  rw [types] at rowFits
  have present : column inner buildCol ≠ .null := by
    intro null
    rw [null] at same
    cases held : column row probeCol <;> rw [held] at same <;> cases same
  refine ⟨present, ?_⟩
  rw [sameKey_iff]
  constructor
  · rintro ⟨equal, _⟩ crossed
    rw [equal] at crossed
    cases held : column inner buildCol <;> rw [held] at crossed <;> try exact crossed.elim
    exact crossed.2.2 rfl
  · intro straight
    have equal := (Value.compareWith_eq rowFits innerFits same).resolve_right straight
    exact ⟨equal, equal ▸ present⟩

/-! ## What one left row contributes -/

/-- The rows of a left row that is paired with the inner rows it keeps. -/
def contribution
    (kind : JoinKind)
    (rightWidth : Nat)
    (keeps : Row → Row → Bool)
    (right : List Row)
    (row : Row) : List Row :=
  padded kind rightWidth row ((right.filter (keeps row)).map (row ++ ·))

/-- Accepted, and met under the key. -/
def matched
    (scope : Scope)
    (on : Expr Query)
    (probeCol buildCol : Nat)
    (row inner : Row) : Bool :=
  accepts scope (some on) row inner && sameKey probeCol buildCol row inner

/-- The predicate has a verdict on every pair. -/
def Evaluates (scope : Scope) (on : Expr Query) (left right : List Row) : Prop :=
  ∀ row ∈ left, ∀ inner ∈ right,
    ∃ keep, passesFilter (some on) scope (row ++ inner) = .ok keep

theorem pairs_ok
    {on : Option (Expr Query)}
    {row : Row}
    (evaluates :
      ∀ inner ∈ right, ∃ keep, passesFilter on scope (row ++ inner) = .ok keep) :
    pairs scope on row right =
      .ok ((right.filter (accepts scope on row)).map (row ++ ·)) := by
  induction right with
  | nil => rfl
  | cons inner rest inductionHypothesis =>
      obtain ⟨keep, verdict⟩ := evaluates inner List.mem_cons_self
      have later := inductionHypothesis fun other member =>
        evaluates other (List.mem_cons_of_mem _ member)
      have kept : accepts scope on row inner = keep := by
        simp only [accepts, workerKeeps, verdict]
      rw [pairs, verdict, later, List.filter_cons, kept]
      cases keep <;> rfl

theorem eachLeft_ok
    {given : Row → Except Error (List Row)}
    {rows : Row → List Row}
    (each : ∀ row ∈ left, given row = .ok (rows row)) :
    eachLeft given left = .ok (left.flatMap rows) := by
  induction left with
  | nil => rfl
  | cons row rest inductionHypothesis =>
      have later := inductionHypothesis fun other member =>
        each other (List.mem_cons_of_mem _ member)
      rw [eachLeft, each row List.mem_cons_self, later]
      rfl

/-- Each left row against its candidates. -/
def probe
    (scope : Scope)
    (on : Option (Expr Query))
    (kind : JoinKind)
    (rightWidth : Nat)
    (candidates : Row → List Row)
    (left : List Row) : Except Error (List Row) :=
  eachLeft
    (fun row => (pairs scope on row (candidates row)).map (padded kind rightWidth row))
    left

theorem probe_ok
    {on : Option (Expr Query)}
    {candidates : Row → List Row}
    (evaluates :
      ∀ row ∈ left, ∀ inner ∈ candidates row,
        ∃ keep, passesFilter on scope (row ++ inner) = .ok keep) :
    probe scope on kind rightWidth candidates left =
      .ok (left.flatMap fun row =>
        padded kind rightWidth row
          (((candidates row).filter (accepts scope on row)).map (row ++ ·))) := by
  refine eachLeft_ok fun row member => ?_
  rw [pairs_ok (evaluates row member)]
  rfl

theorem nestedLoopJoin_eq_probe
    {on : Option (Expr Query)}
    (kinds : kind ≠ .semi ∧ kind ≠ .anti) :
    nestedLoopJoin scope on kind rightWidth left right =
      probe scope on kind rightWidth (fun _ => right) left := by
  cases kind with
  | semi => exact absurd rfl kinds.1
  | anti => exact absurd rfl kinds.2
  | inner => rfl
  | left => rfl
  | cross => rfl

theorem nestedLoopJoin_ok
    (kinds : kind = .inner ∨ kind = .left)
    (evaluates : Evaluates scope on left right) :
    nestedLoopJoin scope (some on) kind rightWidth left right =
      .ok (left.flatMap (contribution kind rightWidth (accepts scope (some on)) right)) := by
  have kinds : kind ≠ .semi ∧ kind ≠ .anti := by
    rcases kinds with rfl | rfl <;> exact ⟨nofun, nofun⟩
  rw [nestedLoopJoin_eq_probe kinds, probe_ok evaluates]
  rfl

/-! ## Hashing -/

theorem buildTable_eq (inner : List Row) :
    buildTable buildCol inner =
      KeyedBuckets.fill
        (fun row =>
          if (column row buildCol).isNull then none
          else some (encodeIndexValue (column row buildCol)))
        inner := by
  unfold buildTable KeyedBuckets.fill
  congr 1
  funext table row
  by_cases null : (column row buildCol).isNull = true
  · simp only [if_pos null]
  · simp only [if_neg null]

theorem bucket_eq (inner : List Row) (row : Row) :
    bucket (buildTable buildCol inner) probeCol row =
      inner.filter (sameKey probeCol buildCol row) := by
  unfold bucket
  cases null : (column row probeCol).isNull with
  | true =>
      simp only [if_true]
      refine (List.filter_eq_nil_iff.mpr fun other _ => ?_).symm
      simp [sameKey, null]
  | false =>
      rw [buildTable_eq, KeyedBuckets.fill_eq_filter]
      simp only [Bool.false_eq_true, if_false]
      refine List.filter_congr fun other _ => ?_
      cases absent : (column other buildCol).isNull <;>
        simp [sameKey, null, absent, eq_comm]

/-- The predicate has a verdict on every pair that meets under its key. -/
def EvaluatesMet
    (scope : Scope)
    (on : Expr Query)
    (probeCol buildCol : Nat)
    (left right : List Row) : Prop :=
  ∀ row ∈ left, ∀ inner ∈ right,
    sameKey probeCol buildCol row inner = true →
      ∃ keep, passesFilter (some on) scope (row ++ inner) = .ok keep

theorem hashJoin_eq_probe {on : Option (Expr Query)} :
    hashJoin scope on kind rightWidth probeCol buildCol left right =
      probe scope on kind rightWidth
        (fun row => right.filter (sameKey probeCol buildCol row)) left := by
  simp only [hashJoin, probe, bucket_eq]

theorem hashJoin_ok (evaluates : EvaluatesMet scope on probeCol buildCol left right) :
    hashJoin scope (some on) kind rightWidth probeCol buildCol left right =
      .ok (left.flatMap
        (contribution kind rightWidth (matched scope on probeCol buildCol) right)) := by
  have met : ∀ row ∈ left, ∀ inner ∈ right.filter (sameKey probeCol buildCol row),
      ∃ keep, passesFilter (some on) scope (row ++ inner) = .ok keep := by
    intro row member inner found
    obtain ⟨listed, same⟩ := List.mem_filter.mp found
    exact evaluates row member inner listed same
  rw [hashJoin_eq_probe, probe_ok met]
  simp only [List.filter_filter]
  rfl

/-! ## Spill files -/

/-- The length of the encoded row fits the `u32` before it. -/
def Spillable (row : Row) : Prop :=
  (RowCodec.encodeRow 0 0 row).length < 2 ^ 32

instance (row : Row) : Decidable (Spillable row) :=
  inferInstanceAs (Decidable (_ < _))

/-- Rows of one width that a spill file hands back. -/
def Spilled (width : Nat) (rows : List Row) : Prop :=
  ∀ row ∈ rows, row.length = width ∧ Spillable row

theorem decodeRowWithin_spilled
    {row : Row}
    (spillable : Spillable row) :
    RowCodec.decodeRowWithin (RowCodec.encodeRow 0 0 row) row.length = .ok ⟨0, 0, row⟩ := by
  have part : (row.flatMap RowCodec.rowFormat.encodeValue).length ≤
      (RowCodec.encodeRow 0 0 row).length := by
    simp only [RowCodec.encodeRow, List.length_append]
    omega
  exact RowCodec.decodeRowWithin_encode 0 0
    (RowCodec.short_of_encoded (Nat.lt_of_le_of_lt part spillable))

theorem readRows_entry
    {width : Nat}
    {encoded rest : List UInt8}
    {record : RowCodec.RowRecord}
    (bound : encoded.length < 2 ^ 32)
    (decoded : RowCodec.decodeRowWithin encoded width = .ok record) :
    readRows width (ByteReader.bigEndian 4 encoded.length ++ (encoded ++ rest)) =
      (record.values :: (readRows width rest).1, (readRows width rest).2) := by
  have size :
      ByteReader.valueOf (ByteReader.bigEndian 4 encoded.length).reverse = encoded.length := by
    rw [ByteReader.bigEndian, List.reverse_reverse, ByteReader.valueOf_littleEndian]
    exact Nat.mod_eq_of_lt (by omega)
  have four := ByteReader.length_bigEndian 4 encoded.length
  rw [readRows, if_neg (by rw [List.length_append, four]; omega)]
  simp only [List.take_left' four, List.drop_left' four, size, List.length_append,
    List.take_left, List.drop_left, decoded]
  rw [if_neg (by omega)]

/-- What is written is read back. -/
theorem readRows_written
    {width : Nat}
    {rows : List Row}
    (spilled : Spilled width rows) :
    readRows width (rows.flatMap writeRow) = (rows, none) := by
  induction rows with
  | nil => rw [List.flatMap_nil, readRows, if_pos (by decide)]
  | cons row rest inductionHypothesis =>
      obtain ⟨rfl, spillable⟩ := spilled row List.mem_cons_self
      rw [List.flatMap_cons, writeRow, List.append_assoc,
        readRows_entry spillable (decodeRowWithin_spilled spillable),
        inductionHypothesis fun other member => spilled other (List.mem_cons_of_mem _ member)]

theorem spilledHashJoin_eq
    {on : Option (Expr Query)}
    {leftWidth : Nat}
    (leftSpilled : Spilled leftWidth left)
    (rightSpilled : Spilled rightWidth right) :
    spilledHashJoin scope on kind rightWidth leftWidth probeCol buildCol
        (left.flatMap writeRow) (right.flatMap writeRow) =
      hashJoin scope on kind rightWidth probeCol buildCol left right := by
  rw [spilledHashJoin, readRows_written leftSpilled, readRows_written rightSpilled]
  dsimp only
  cases hashJoin scope on kind rightWidth probeCol buildCol left right <;> rfl

theorem Spilled.filter
    {width : Nat}
    {rows : List Row}
    (spilled : Spilled width rows)
    (keep : Row → Bool) :
    Spilled width (rows.filter keep) :=
  fun row member => spilled row (List.mem_filter.mp member).1

/-! ## Partitions -/

theorem contribution_partition
    (hasher : List UInt8 → Nat)
    (row : Row) :
    contribution kind rightWidth (matched scope on probeCol buildCol)
        (right.filter fun inner =>
          partitionFor hasher (column inner buildCol) =
            partitionFor hasher (column row probeCol))
        row =
      contribution kind rightWidth (matched scope on probeCol buildCol) right row := by
  unfold contribution
  rw [List.filter_filter]
  refine congrArg _ (congrArg _ (List.filter_congr fun inner _ => ?_))
  cases met : matched scope on probeCol buildCol row inner with
  | false => rfl
  | true =>
      have same := (sameKey_iff.mp (Bool.and_eq_true_iff.mp met).2).1
      simp [same]

theorem partitionFor_lt (hasher : List UInt8 → Nat) (value : Value) :
    partitionFor hasher value < hashPartitions := by
  unfold partitionFor
  split
  · decide
  · exact Nat.mod_lt _ (by decide)

theorem graceHashJoin_ok
    {leftWidth : Nat}
    (hasher : List UInt8 → Nat)
    (leftSpilled : Spilled leftWidth left)
    (rightSpilled : Spilled rightWidth right)
    (evaluates : EvaluatesMet scope on probeCol buildCol left right) :
    ∃ rows,
      graceHashJoin scope (some on) kind rightWidth hasher leftWidth probeCol buildCol left
            right =
          .ok rows ∧
        rows.Perm (left.flatMap
          (contribution kind rightWidth (matched scope on probeCol buildCol) right)) := by
  have joined (partitions : List Nat) :
      graceHashJoin.eachPartition scope (some on) kind rightWidth hasher leftWidth probeCol
          buildCol left right partitions =
        .ok (partitions.flatMap fun partition =>
          (left.filter fun row => partitionFor hasher (column row probeCol) = partition).flatMap
            (contribution kind rightWidth (matched scope on probeCol buildCol) right)) := by
    induction partitions with
    | nil => rfl
    | cons partition rest inductionHypothesis =>
        rw [graceHashJoin.eachPartition, inductionHypothesis,
          spilledHashJoin_eq (leftSpilled.filter _) (rightSpilled.filter _),
          hashJoin_ok fun row member inner innerMember met =>
            evaluates row (List.mem_filter.mp member).1 inner (List.mem_filter.mp innerMember).1
              met]
        refine congrArg Except.ok (congrArg (· ++ _) (List.flatMap_congr fun row member => ?_))
        have dealt := of_decide_eq_true (List.mem_filter.mp member).2
        rw [← dealt]
        exact contribution_partition hasher row
  refine ⟨_, joined _, KeyedBuckets.perm_flatMap_parts List.nodup_range _ _ ?_⟩
  exact fun row _ => List.mem_range.mpr (partitionFor_lt hasher _)

/-! ## Batches of rows -/

theorem pushValue_fits
    {type : ColumnType}
    {value : Value}
    (fits : value.fits type = true) :
    pushValue type value = .ok value := by
  cases type <;> cases value <;> first | rfl | cases fits

theorem pushValues_fits
    {types : List ColumnType}
    {row : Row}
    (length : row.length = types.length)
    (fits :
      ∀ position type, types[position]? = some type → (column row position).fits type = true) :
    pushValues types row = .ok row := by
  induction types generalizing row with
  | nil =>
      obtain rfl := List.length_eq_zero_iff.mp length
      rfl
  | cons type types inductionHypothesis =>
      cases row with
      | nil => cases length
      | cons value rest =>
          have first : pushValue type value = .ok value := pushValue_fits (fits 0 type rfl)
          have later : pushValues types rest = .ok rest :=
            inductionHypothesis (Nat.succ.inj length) fun position type found =>
              fits (position + 1) type found
          rw [pushValues, first, later]
          rfl

def typesOf (scope : Scope) : List ColumnType := scope.map ScopedColumn.type

/-- A left row with an inner one behind it has a fitting value in each column. -/
theorem Input.fits
    (input : Input scope leftLen rightWidth left right)
    {row inner : Row}
    (rowListed : row ∈ left)
    (innerWidth : inner.length = rightWidth)
    (innerTyped :
      ∀ position entry,
        scope[leftLen + position]? = some entry →
          (column inner position).fits entry.type = true) :
    (row ++ inner).length = scope.length ∧
      ∀ position entry,
        scope[position]? = some entry →
          (column (row ++ inner) position).fits entry.type = true := by
  have width := input.leftWidth row rowListed
  refine ⟨by rw [input.columns, List.length_append, width, innerWidth],
    fun position entry listed => ?_⟩
  by_cases inLeft : position < leftLen
  · rw [column_append_left (width.symm ▸ inLeft)]
    exact input.leftTyped row rowListed position inLeft entry listed
  · obtain ⟨later, rfl⟩ := Nat.exists_eq_add_of_le (Nat.not_lt.mp inLeft)
    rw [← width, column_append_right]
    exact innerTyped later entry listed

theorem column_replicate_null (width position : Nat) :
    column (List.replicate width .null) position = .null := by
  simp only [column, List.getD_eq_getElem?_getD, List.getElem?_replicate]
  split <;> rfl

theorem Input.fits_padded
    (input : Input scope leftLen rightWidth left right)
    {row : Row}
    (rowListed : row ∈ left) :
    (row ++ List.replicate rightWidth Value.null).length = scope.length ∧
      ∀ position entry,
        scope[position]? = some entry →
          (column (row ++ List.replicate rightWidth .null) position).fits entry.type = true := by
  refine input.fits rowListed List.length_replicate fun position entry _ => ?_
  rw [column_replicate_null]
  rfl

theorem pushRow_fits
    {row : Row}
    (fits :
      row.length = scope.length ∧
        ∀ position entry,
          scope[position]? = some entry → (column row position).fits entry.type = true) :
    pushRow (typesOf scope) row = .ok row := by
  have length : row.length = (typesOf scope).length := by
    rw [typesOf, List.length_map, fits.1]
  rw [pushRow, if_neg (not_not.mpr length)]
  refine pushValues_fits length fun position type found => ?_
  rw [typesOf, List.getElem?_map] at found
  obtain ⟨entry, listed, rfl⟩ := Option.map_eq_some_iff.mp found
  exact fits.2 position entry listed

namespace Assembler

/-- The rows of the batches, handed out or not. -/
def contents (assembler : Assembler) : List Row := assembler.emitted.flatten ++ assembler.out

theorem push_ok
    {types : List ColumnType}
    {assembler : Assembler}
    {row : Row}
    (stored : pushRow types row = .ok row) :
    ∃ next,
      assembler.push types row = .ok next ∧ next.contents = assembler.contents ++ [row] := by
  unfold push
  rw [stored]
  by_cases full : batchSize ≤ (assembler.out ++ [row]).length
  · exact ⟨_, if_pos full, by simp [contents]⟩
  · exact ⟨_, if_neg full, by simp [contents]⟩

theorem finish_flatten (assembler : Assembler) :
    assembler.finish.flatten = assembler.contents := by
  unfold finish contents
  split
  case isTrue empty => simp [empty]
  case isFalse => simp

end Assembler

theorem pushPairs_eq
    {on : Option (Expr Query)}
    {types : List ColumnType}
    {row : Row}
    {candidates : List Row}
    (stored : ∀ inner ∈ candidates, pushRow types (row ++ inner) = .ok (row ++ inner))
    (assembler : Assembler)
    (found : Bool) :
    (pushPairs scope on types row assembler found candidates).map
        (fun result => (result.1.contents, result.2)) =
      (pairs scope on row candidates).map
        fun kept => (assembler.contents ++ kept, found || !kept.isEmpty) := by
  induction candidates generalizing assembler found with
  | nil => simp [pushPairs, pairs, Except.map]
  | cons inner rest inductionHypothesis =>
      have deeper := inductionHypothesis fun other member =>
        stored other (List.mem_cons_of_mem _ member)
      rw [pushPairs, pairs]
      cases verdict : passesFilter on scope (row ++ inner) with
      | error error => rfl
      | ok keep =>
          cases keep with
          | false =>
              refine (deeper assembler found).trans ?_
              cases pairs scope on row rest <;> rfl
          | true =>
              obtain ⟨pushed, ran, grown⟩ :=
                @Assembler.push_ok types assembler _ (stored inner List.mem_cons_self)
              have step := deeper pushed true
              rw [grown] at step
              simp only [bind, Except.bind, if_true, ran]
              refine step.trans ?_
              cases pairs scope on row rest with
              | error error => rfl
              | ok later => simp [Except.map, pure, Except.pure]

/-- Batches hold the rows that the row operator hands out. -/
theorem batchProbe_eq
    {on : Option (Expr Query)}
    {types : List ColumnType}
    {candidates : Row → List Row}
    (stored :
      ∀ row ∈ left, ∀ inner ∈ candidates row,
        pushRow types (row ++ inner) = .ok (row ++ inner))
    (storedPadded :
      ∀ row ∈ left,
        pushRow types (row ++ List.replicate rightWidth .null) =
          .ok (row ++ List.replicate rightWidth .null))
    (assembler : Assembler) :
    (batchProbe scope on kind rightWidth types candidates assembler left).map
        Assembler.contents =
      (probe scope on kind rightWidth candidates left).map (assembler.contents ++ ·) := by
  induction left generalizing assembler with
  | nil => simp [batchProbe, probe, eachLeft, Except.map]
  | cons row rest inductionHypothesis =>
      have deeper := inductionHypothesis
        (fun other member => stored other (List.mem_cons_of_mem _ member))
        (fun other member => storedPadded other (List.mem_cons_of_mem _ member))
      have paired := @pushPairs_eq _ scope on types row (candidates row)
        (stored row List.mem_cons_self) assembler false
      rw [batchProbe]
      unfold probe at deeper ⊢
      rw [eachLeft]
      cases ran : pairs scope on row (candidates row) with
      | error error =>
          rw [ran] at paired
          cases pushed : pushPairs scope on types row assembler false (candidates row) with
          | error other =>
              rw [pushed] at paired
              cases paired
              rfl
          | ok result => rw [pushed] at paired; cases paired
      | ok kept =>
          rw [ran] at paired
          cases pushed : pushPairs scope on types row assembler false (candidates row) with
          | error other => rw [pushed] at paired; cases paired
          | ok result =>
              obtain ⟨next, found⟩ := result
              rw [pushed] at paired
              obtain ⟨grown, rfl⟩ := Prod.mk.inj (Except.ok.inj paired)
              change Except.map _ (ite _ _ _) =
                Except.map _ (Except.bind (.ok (padded kind rightWidth row kept)) _)
              have alone : (false || !kept.isEmpty) = false ↔ kept = [] := by simp
              by_cases padding : kind = .left ∧ kept = []
              · obtain ⟨last, stretched, further⟩ :=
                  @Assembler.push_ok types next _ (storedPadded row List.mem_cons_self)
                have alike : padded kind rightWidth row kept = _ := if_pos padding
                rw [if_pos ⟨padding.1, alone.mpr padding.2⟩, alike, stretched]
                refine (deeper last).trans ?_
                rw [further, grown, padding.2]
                cases eachLeft _ rest <;>
                  simp [Except.map, Except.bind, bind, pure, Except.pure]
              · have alike : padded kind rightWidth row kept = kept := if_neg padding
                rw [if_neg fun both => padding ⟨both.1, alone.mp both.2⟩, alike]
                refine (deeper next).trans ?_
                rw [grown]
                cases eachLeft _ rest <;>
                  simp [Except.map, Except.bind, bind, pure, Except.pure]

theorem map_finish (outcome : Except Error Assembler) :
    (outcome.map Assembler.finish).map List.flatten = outcome.map Assembler.contents := by
  cases outcome with
  | error error => rfl
  | ok assembler => exact congrArg Except.ok assembler.finish_flatten

theorem map_empty_append (outcome : Except Error (List Row)) :
    outcome.map (Assembler.empty.contents ++ ·) = outcome := by
  cases outcome <;> rfl

/-- Every combined row fits the columns of its batch. -/
def Storable (types : List ColumnType) (rightWidth : Nat) (left right : List Row) : Prop :=
  (∀ row ∈ left, ∀ inner ∈ right, pushRow types (row ++ inner) = .ok (row ++ inner)) ∧
    ∀ row ∈ left,
      pushRow types (row ++ List.replicate rightWidth .null) =
        .ok (row ++ List.replicate rightWidth .null)

theorem Input.storable (input : Input scope leftLen rightWidth left right) :
    Storable (typesOf scope) rightWidth left right :=
  ⟨fun _ rowListed inner innerListed =>
      pushRow_fits (input.fits rowListed (input.rightWidth inner innerListed)
        (input.rightTyped inner innerListed)),
    fun _ rowListed => pushRow_fits (input.fits_padded rowListed)⟩

theorem batchHashJoin_eq
    {on : Option (Expr Query)}
    {types : List ColumnType}
    {leftBatches rightBatches : List (List Row)}
    (storable : Storable types rightWidth leftBatches.flatten rightBatches.flatten) :
    (batchHashJoin scope on kind rightWidth types probeCol buildCol leftBatches
        rightBatches).map List.flatten =
      hashJoin scope on kind rightWidth probeCol buildCol leftBatches.flatten
        rightBatches.flatten := by
  have held :
      ∀ row ∈ leftBatches.flatten,
        ∀ inner ∈ bucket (buildTable buildCol rightBatches.flatten) probeCol row,
          pushRow types (row ++ inner) = .ok (row ++ inner) := by
    intro row listed inner met
    rw [bucket_eq] at met
    exact storable.1 row listed inner (List.mem_filter.mp met).1
  rw [batchHashJoin, map_finish, batchProbe_eq held storable.2, map_empty_append]
  rfl

theorem batchNestedLoopJoin_eq
    {on : Option (Expr Query)}
    {types : List ColumnType}
    {leftBatches rightBatches : List (List Row)}
    (kinds : kind ≠ .semi ∧ kind ≠ .anti)
    (storable : Storable types rightWidth leftBatches.flatten rightBatches.flatten) :
    (batchNestedLoopJoin scope on kind rightWidth types leftBatches rightBatches).map
        List.flatten =
      nestedLoopJoin scope on kind rightWidth leftBatches.flatten rightBatches.flatten := by
  rw [batchNestedLoopJoin, map_finish, batchProbe_eq storable.1 storable.2, map_empty_append,
    nestedLoopJoin_eq_probe kinds]

/-! ## Workers -/

theorem joinWorker_eq
    (filter : Option (Expr Query))
    (plain : List Nat)
    (outer : List Row) :
    joinWorker scope leftLen on filter (buildTable buildCol right) probeCol plain outer =
      ((outer.filter (workerKeeps filter (scope.take leftLen))).flatMap
        (contribution .inner rightWidth (matched scope on probeCol buildCol) right)).map
          fun combined => plain.map (column combined) := by
  unfold joinWorker
  induction outer with
  | nil => rfl
  | cons row rest inductionHypothesis =>
      rw [List.flatMap_cons, inductionHypothesis]
      cases kept : workerKeeps filter (scope.take leftLen) row with
      | false => simp [kept]
      | true =>
          have probed :
              ((bucket (buildTable buildCol right) probeCol row).map (row ++ ·)).filter
                  (workerKeeps (some on) scope) =
                contribution .inner rightWidth (matched scope on probeCol buildCol) right row := by
            rw [bucket_eq, List.filter_map, List.filter_filter]
            rfl
          rw [if_pos rfl, probed, List.filter_cons_of_pos kept, List.flatMap_cons,
            List.map_append]

theorem parallelHashJoin_eq
    (filter : Option (Expr Query))
    (plain : List Nat)
    (outer : List (List Row)) :
    parallelHashJoin scope leftLen on filter probeCol buildCol plain outer right =
      ((outer.flatten.filter (workerKeeps filter (scope.take leftLen))).flatMap
        (contribution .inner rightWidth (matched scope on probeCol buildCol) right)).map
          fun combined => plain.map (column combined) := by
  unfold parallelHashJoin
  induction outer with
  | nil => rfl
  | cons range rest inductionHypothesis =>
      rw [List.flatMap_cons, inductionHypothesis, List.flatten_cons, List.filter_append,
        List.flatMap_append, List.map_append, joinWorker_eq]

/-! ## The index of the inner table -/

section IndexJoin

variable {joined : Schema} {table : AccessPaths.Table joined}

/-- The inner rows: what a full scan of the table hands out. -/
def innerRows (table : AccessPaths.Table joined) : List Row :=
  (table.versions.filter AccessPaths.Version.visible).map AccessPaths.Version.values

/-- The visible rows of the key whose entries are in the index tree. -/
def entered (table : AccessPaths.Table joined) (index : Index) (inner : Nat) (key : Value) :
    List Row :=
  ((table.versions.filter AccessPaths.Version.visible).filter fun version =>
    decide ((key = column version.values inner ∧ key ≠ .null) ∧
      index.key version ∈ table.trees index.root)).map AccessPaths.Version.values

/-- Every entry of the index is one of a version. -/
def Rooted (table : AccessPaths.Table joined) (index : Index) : Prop :=
  ∀ entry ∈ table.trees index.root, ∃ version ∈ table.versions, entry = index.key version

/-- An index probe finds the rows of its key that were entered, in some order. -/
theorem lookup_ok
    {index : Index}
    {inner : Nat}
    (rooted : Rooted table index)
    (leads : index.columns.head? = some inner)
    (key : Value) :
    ∃ rows,
      lookup table index.root key = .ok rows ∧ rows.Perm (entered table index inner key) := by
  unfold lookup entered
  cases null : key.isNull with
  | true =>
      have absent := of_decide_eq_true null
      exact ⟨[], rfl, by simp [absent]⟩
  | false =>
      have present := of_decide_eq_false null
      obtain ⟨found, followed, apart, members⟩ :=
        @AccessPaths.Table.follow_ok joined table index
          ((table.trees index.root).filter
            (inIndexRange (encodeIndexValue key) (prefixUpperBound (encodeIndexValue key))))
          (fun entry member => rooted entry (List.mem_filter.mp member).1) []
      obtain ⟨rest, columns⟩ : ∃ rest, index.columns = inner :: rest :=
        ⟨index.columns.tail, (List.cons_head?_tail leads).symm⟩
      have starts (version : AccessPaths.Version) :
          encodeIndexValue key <+: index.key version ↔ column version.values inner = key := by
        rw [AccessPaths.Index.key, encodeIndexKey, columns]
        simp only [encodeIndexValuePrefix, List.flatMap_cons, List.append_assoc]
        exact encodeIndexValue_isPrefix_iff
      have reached (version : AccessPaths.Version) :
          version ∈ found ↔
            version ∈ (table.versions.filter AccessPaths.Version.visible).filter fun version =>
              decide ((key = column version.values inner ∧ key ≠ .null) ∧
                index.key version ∈ table.trees index.root) := by
        rw [members]
        simp only [List.mem_filter, decide_eq_true_eq, ReadPaths.inIndexRange_prefixUpperBound,
          starts]
        constructor
        · rintro ⟨stored, visible, ⟨listed, same⟩, _⟩
          exact ⟨⟨stored, visible⟩, ⟨same.symm, present⟩, listed⟩
        · rintro ⟨⟨stored, visible⟩, ⟨same, _⟩, listed⟩
          exact ⟨stored, visible, ⟨listed, same.symm⟩, List.not_mem_nil⟩
      refine ⟨found.map AccessPaths.Version.values, ?_, ?_⟩
      · simp only [Bool.false_eq_true, if_false, AccessPaths.Table.scan, followed]
        rfl
      · have versions : table.versions.Nodup := List.Nodup.of_map _ table.keyed
        exact ((List.perm_ext_iff_of_nodup apart
          ((versions.filter _).filter _)).mpr reached).map AccessPaths.Version.values

theorem rooted_of_finished
    {index : Index}
    (listed : index ∈ joined.indexes)
    (finished : index.isBuilding = false) :
    Rooted table index := by
  intro entry member
  obtain ⟨version, stored, rfl⟩ :=
    List.mem_map.mp ((table.indexed index listed finished).mem_iff.mp member)
  exact ⟨version, stored, rfl⟩

theorem entered_of_finished
    {index : Index}
    (listed : index ∈ joined.indexes)
    (finished : index.isBuilding = false)
    {row : Row}
    {keyAt inner : Nat} :
    entered table index inner (column row keyAt) =
      (innerRows table).filter (sameKey keyAt inner row) := by
  unfold entered innerRows
  rw [List.filter_map]
  refine congrArg _ (List.filter_congr fun version member => ?_)
  have entry : index.key version ∈ table.trees index.root :=
    (table.indexed index listed finished).mem_iff.mpr
      (List.mem_map.mpr ⟨version, (List.mem_filter.mp member).1, rfl⟩)
  rw [Bool.eq_iff_iff, decide_eq_true_iff, Function.comp_apply, sameKey_iff]
  exact and_iff_left entry

theorem resolve_take
    {ref : ColumnRef}
    {index : Nat}
    (resolved : scope.resolve ref = .ok index)
    (bound : index < leftLen) :
    Scope.resolve (scope.take leftLen) ref = .ok index := by
  obtain ⟨entry, found, _⟩ := Scope.resolve_names resolved
  have inScope := (List.getElem?_eq_some_iff.mp found).1
  rw [Scope.resolve_ok_iff] at resolved ⊢
  rw [← List.take_append_drop leftLen scope, List.findIdxs_append, Nat.zero_add] at resolved
  rcases List.append_eq_singleton_iff.mp resolved with ⟨_, later⟩ | ⟨here, _⟩
  · have above := List.ge_of_mem_findIdxs index (later ▸ List.mem_singleton_self index)
    rw [List.length_take] at above
    omega
  · exact here

theorem padded_perm
    {row : Row}
    {first second : List Row}
    (same : first.Perm second) :
    (padded kind rightWidth row first).Perm (padded kind rightWidth row second) := by
  unfold padded
  have empty : first = [] ↔ second = [] :=
    ⟨fun nothing => (nothing ▸ same).symm.eq_nil, fun nothing => (nothing ▸ same).eq_nil⟩
  by_cases padding : kind = .left ∧ first = []
  · rw [if_pos padding, if_pos ⟨padding.1, empty.mp padding.2⟩]
  · rw [if_neg padding, if_neg fun both => padding ⟨both.1, empty.mpr both.2⟩]
    exact same

theorem indexNestedLoopJoin_eq_probe
    {on : Option (Expr Query)}
    {index : Index}
    {key : ColumnRef}
    {keyAt inner : Nat}
    (rooted : Rooted table index)
    (leads : index.columns.head? = some inner)
    (resolved : scope.resolve key = .ok keyAt)
    (bound : keyAt < leftLen) :
    ∃ found : Row → List Row,
      indexNestedLoopJoin scope on kind rightWidth (scope.take leftLen) table key index.root
          left =
        probe scope on kind rightWidth found left ∧
      ∀ row, (found row).Perm (entered table index inner (column row keyAt)) := by
  obtain ⟨found, probed⟩ :=
    Classical.skolem.mp fun row : Row => lookup_ok rooted leads (column row keyAt)
  refine ⟨found, ?_, fun row => (probed row).2⟩
  refine congrArg (eachLeft · left) (funext fun row => ?_)
  have evaluated :
      eval (scope.take leftLen) row (.column key : Expr Query) = .ok (column row keyAt) := by
    rw [eval, resolve_take resolved bound]
    rfl
  rw [evaluated]
  simp only [bind, Except.bind, (probed row).1]

theorem indexNestedLoopJoin_ok
    {index : Index}
    {key : ColumnRef}
    {keyAt inner : Nat}
    (listed : index ∈ joined.indexes)
    (finished : index.isBuilding = false)
    (leads : index.columns.head? = some inner)
    (resolved : scope.resolve key = .ok keyAt)
    (bound : keyAt < leftLen)
    (evaluates : Evaluates scope on left (innerRows table)) :
    ∃ rows,
      indexNestedLoopJoin scope (some on) kind rightWidth (scope.take leftLen) table key
          index.root left = .ok rows ∧
        rows.Perm (left.flatMap
          (contribution kind rightWidth (matched scope on keyAt inner) (innerRows table))) := by
  obtain ⟨found, ran, same⟩ :=
    @indexNestedLoopJoin_eq_probe _ scope leftLen rightWidth kind left joined table (some on)
      index key keyAt inner (rooted_of_finished listed finished) leads resolved bound
  have alike (row : Row) :
      (found row).Perm ((innerRows table).filter (sameKey keyAt inner row)) := by
    rw [← entered_of_finished listed finished]
    exact same row
  have met : ∀ row ∈ left, ∀ inner ∈ found row,
      ∃ keep, passesFilter (some on) scope (row ++ inner) = .ok keep :=
    fun row member other held =>
      evaluates row member other (List.mem_filter.mp ((alike row).mem_iff.mp held)).1
  refine ⟨_, ran.trans (probe_ok met), List.Perm.flatMap_left left fun row _ => ?_⟩
  have kept := (alike row).filter (accepts scope (some on) row)
  rw [List.filter_filter] at kept
  exact padded_perm (kept.map (row ++ ·))

end IndexJoin

/-! ## The same rows -/

theorem mem_contribution
    {keeps : Row → Row → Bool}
    {row combined : Row}
    (member : combined ∈ contribution kind rightWidth keeps right row) :
    (∃ inner ∈ right, keeps row inner = true ∧ combined = row ++ inner) ∨
      combined = row ++ List.replicate rightWidth .null := by
  unfold contribution padded at member
  split at member
  case isTrue => exact Or.inr (List.mem_singleton.mp member)
  case isFalse =>
    obtain ⟨inner, kept, rfl⟩ := List.mem_map.mp member
    obtain ⟨listed, keep⟩ := List.mem_filter.mp kept
    exact Or.inl ⟨inner, listed, keep, rfl⟩

theorem mem_contribution_of_keeps
    {keeps : Row → Row → Bool}
    {row inner : Row}
    (listed : inner ∈ right)
    (keep : keeps row inner = true) :
    row ++ inner ∈ contribution kind rightWidth keeps right row := by
  have member : row ++ inner ∈ (right.filter (keeps row)).map (row ++ ·) :=
    List.mem_map.mpr ⟨inner, List.mem_filter.mpr ⟨listed, keep⟩, rfl⟩
  unfold contribution padded
  rw [if_neg fun both => List.ne_nil_of_mem member both.2]
  exact member

/-- Where no accepted pair is crossed, every accepted pair meets under its key. -/
theorem contribution_eq
    (keyed : Keyed scope leftLen on probeCol buildCol)
    (input : Input scope leftLen rightWidth left right)
    (uncrossed : Uncrossed scope on probeCol buildCol left right)
    {row : Row}
    (rowListed : row ∈ left) :
    contribution kind rightWidth (matched scope on probeCol buildCol) right row =
      contribution kind rightWidth (accepts scope (some on)) right row := by
  unfold contribution
  refine congrArg _ (congrArg _ (List.filter_congr fun inner innerListed => ?_))
  cases accepted : accepts scope (some on) row inner with
  | false => simp [matched, accepted]
  | true =>
      have passes := accepts_iff.mp accepted
      have met := (keyed.accepted input rowListed innerListed passes).2.mpr
        (uncrossed row rowListed inner innerListed passes)
      simp [matched, accepted, met]

theorem perm_iff_uncrossed
    (keyed : Keyed scope leftLen on probeCol buildCol)
    (input : Input scope leftLen rightWidth left right) :
    (left.flatMap
        (contribution kind rightWidth (matched scope on probeCol buildCol) right)).Perm
      (left.flatMap (contribution kind rightWidth (accepts scope (some on)) right)) ↔
      Uncrossed scope on probeCol buildCol left right := by
  constructor
  · intro same row rowListed inner innerListed passes
    have kept :
        row ++ inner ∈
          left.flatMap (contribution kind rightWidth (accepts scope (some on)) right) :=
      List.mem_flatMap.mpr
        ⟨row, rowListed, mem_contribution_of_keeps innerListed (accepts_iff.mpr passes)⟩
    obtain ⟨present, met⟩ := keyed.accepted input rowListed innerListed passes
    obtain ⟨other, otherListed, member⟩ := List.mem_flatMap.mp (same.mem_iff.mpr kept)
    have widths : row.length = other.length :=
      (input.leftWidth row rowListed).trans (input.leftWidth other otherListed).symm
    rcases mem_contribution member with ⟨partner, _, keep, equal⟩ | equal
    · obtain ⟨rfl, rfl⟩ := List.append_inj equal widths
      exact met.mp (Bool.and_eq_true_iff.mp keep).2
    · obtain ⟨_, rfl⟩ := List.append_inj equal widths
      exact absurd (column_replicate_null _ _) present
  · intro uncrossed
    exact List.Perm.of_eq (List.flatMap_congr fun row member =>
      contribution_eq keyed input uncrossed member)

/-- With the rows cut down to some columns: fewer pairs are fewer rows. -/
theorem perm_map_iff_uncrossed
    (keyed : Keyed scope leftLen on probeCol buildCol)
    (input : Input scope leftLen rightWidth left right)
    (project : Row → Row) :
    ((left.flatMap
        (contribution .inner rightWidth (matched scope on probeCol buildCol) right)).map
          project).Perm
      ((left.flatMap
        (contribution .inner rightWidth (accepts scope (some on)) right)).map project) ↔
      Uncrossed scope on probeCol buildCol left right := by
  rw [← @perm_iff_uncrossed _ scope leftLen rightWidth .inner on left right probeCol buildCol
    keyed input]
  refine ⟨fun same => ?_, fun same => same.map project⟩
  have fewer :
      (left.flatMap
          (contribution .inner rightWidth (matched scope on probeCol buildCol) right)).Sublist
        (left.flatMap (contribution .inner rightWidth (accepts scope (some on)) right)) := by
    refine List.Sublist.flatMap_right left fun row _ => ?_
    refine List.Sublist.map _ (List.monotone_filter_right right fun inner keep => ?_)
    exact (Bool.and_eq_true_iff.mp keep).1
  have count := same.length_eq
  rw [List.length_map, List.length_map] at count
  exact List.Perm.of_eq (fewer.eq_of_length count)

/-- The operator hands out rows, and they are the expected ones exactly under the condition. -/
def AgreesWhen
    (condition : Prop)
    (outcome : Except Error (List Row))
    (expected : List Row) : Prop :=
  ∃ rows, outcome = .ok rows ∧ (rows.Perm expected ↔ condition)

/--
The nested loop succeeds, and each other operator that the planner may put in
its place hands out its rows exactly when no accepted pair is crossed in the
columns it looks rows up by.
-/
def OperatorsAgree
    (scope : Scope)
    (leftLen rightWidth : Nat)
    (kind : JoinKind)
    (on : Expr Query)
    (left right : List Row) : Prop :=
  ∃ reference,
    nestedLoopJoin scope (some on) kind rightWidth left right = .ok reference ∧
      (∀ probeCol buildCol,
        findEquiJoin on leftLen scope = some (probeCol, buildCol) →
          AgreesWhen (Uncrossed scope on probeCol buildCol left right)
              (hashJoin scope (some on) kind rightWidth probeCol buildCol left right)
              reference ∧
            ((∀ row ∈ left ++ right, Spillable row) →
              ∀ hasher,
                AgreesWhen (Uncrossed scope on probeCol buildCol left right)
                  (graceHashJoin scope (some on) kind rightWidth hasher leftLen probeCol buildCol
                    left right)
                  reference) ∧
            (∀ leftBatches rightBatches,
              leftBatches.flatten = left →
                rightBatches.flatten = right →
                  AgreesWhen (Uncrossed scope on probeCol buildCol left right)
                    ((batchHashJoin scope (some on) kind rightWidth (typesOf scope) probeCol
                      buildCol leftBatches rightBatches).map List.flatten)
                    reference) ∧
            (kind = .inner →
              ∀ filter plain outer,
                outer.flatten.filter (workerKeeps filter (scope.take leftLen)) = left →
                  AgreesWhen (Uncrossed scope on probeCol buildCol left right)
                    (.ok (parallelHashJoin scope leftLen on filter probeCol buildCol plain outer
                      right))
                    (reference.map fun combined => plain.map (column combined)))) ∧
      (∀ (joined : Schema) (table : AccessPaths.Table joined) key root,
        findIndexJoin on leftLen scope joined = some (key, root) →
          (∀ index ∈ joined.indexes, index.root = root → index.isBuilding = false) →
            innerRows table = right →
              ∃ keyAt inner,
                scope.resolve key = .ok keyAt ∧
                  (∃ index ∈ joined.indexes,
                    index.root = root ∧ index.columns.head? = some inner) ∧
                  AgreesWhen (Uncrossed scope on keyAt inner left right)
                    (indexNestedLoopJoin scope (some on) kind rightWidth (scope.take leftLen)
                      table key root left)
                    reference)

/--
Where the predicate evaluates on every pair, each operator hands out the nested
loop's rows exactly when no accepted pair holds the two zeros in its columns.
-/
theorem joins_agree_iff
    (input : Input scope leftLen rightWidth left right)
    (kinds : kind = .inner ∨ kind = .left)
    (evaluates : Evaluates scope on left right) :
    OperatorsAgree scope leftLen rightWidth kind on left right := by
  refine ⟨_, nestedLoopJoin_ok kinds evaluates, ?_, ?_⟩
  · intro probeCol buildCol found
    have keyed := findEquiJoin_keyed found
    have met : EvaluatesMet scope on probeCol buildCol left right :=
      fun row rowListed inner innerListed _ => evaluates row rowListed inner innerListed
    refine ⟨⟨_, hashJoin_ok met, perm_iff_uncrossed keyed input⟩, ?_, ?_, ?_⟩
    · intro spillable hasher
      have leftSpilled : Spilled leftLen left := fun row member =>
        ⟨input.leftWidth row member, spillable row (List.mem_append_left _ member)⟩
      have rightSpilled : Spilled rightWidth right := fun row member =>
        ⟨input.rightWidth row member, spillable row (List.mem_append_right _ member)⟩
      obtain ⟨rows, ran, same⟩ := graceHashJoin_ok hasher leftSpilled rightSpilled met
      exact ⟨rows, ran, (same.congr_left _).trans (perm_iff_uncrossed keyed input)⟩
    · rintro leftBatches rightBatches rfl rfl
      rw [batchHashJoin_eq input.storable]
      exact ⟨_, hashJoin_ok met, perm_iff_uncrossed keyed input⟩
    · rintro rfl filter plain outer rfl
      refine ⟨_, rfl, ?_⟩
      have streamed := @parallelHashJoin_eq _ scope leftLen rightWidth on right probeCol
        buildCol filter plain outer
      rw [streamed]
      exact perm_map_iff_uncrossed keyed input _
  · rintro joined table key root found complete rfl
    obtain ⟨keyAt, inner, keyed, resolved, index, listed, rfl, leads⟩ :=
      findIndexJoin_keyed found
    obtain ⟨rows, ran, same⟩ :=
      @indexNestedLoopJoin_ok _ scope leftLen rightWidth kind on left joined table index key
        keyAt inner listed (complete index listed rfl) leads resolved keyed.bound evaluates
    exact ⟨keyAt, inner, resolved, ⟨index, listed, rfl, leads⟩, rows, ran,
      (same.congr_left _).trans (perm_iff_uncrossed keyed input)⟩

end Agreement

/-! ## Two tables of temperatures -/

/-- `a JOIN t` on two `REAL` columns; the inner table has an index. -/
def readings : Scope :=
  { table := "a", name := "degrees", type := .real } :: AccessPaths.temperatures.scope "t"

def sameDegrees : Expr Empty :=
  .binary (.comparison .eq) (.column { table := some "a", name := "degrees" })
    (.column { table := some "t", name := "degrees" })

theorem readings_input (leftBits rightBits : UInt64) :
    Input readings 1 1 [[.real leftBits]] [[.real rightBits]] where
  columns := rfl
  leftWidth := by simp
  rightWidth := by simp
  leftTyped := by
    intro row listed position bound entry found
    obtain rfl := List.mem_singleton.mp listed
    obtain rfl : position = 0 := by omega
    cases found
    rfl
  rightTyped := by
    intro row listed position entry found
    obtain rfl := List.mem_singleton.mp listed
    match position with
    | 0 =>
        cases found
        rfl
    | later + 1 =>
        rw [List.getElem?_eq_none (Nat.le_add_left 2 later |>.trans_eq (by omega))] at found
        cases found

/-- Two positive zeros meet whichever operator joins them. -/
theorem joins_agree_zeros :
    OperatorsAgree readings 1 1 .left sameDegrees [[.real 0]] [[.real 0]] ∧
      findEquiJoin sameDegrees 1 readings = some (0, 0) ∧
      findIndexJoin sameDegrees 1 readings AccessPaths.temperatures =
        some ({ table := some "a", name := "degrees" }, 7) := by
  refine ⟨joins_agree_iff (readings_input 0 0) (Or.inr rfl) ?_, by decide, by decide⟩
  intro row listed inner innerListed
  obtain rfl := List.mem_singleton.mp listed
  obtain rfl := List.mem_singleton.mp innerListed
  exact ⟨true, by decide⟩

theorem spilled_degrees (bits : UInt64) : Spilled 1 [[.real bits]] := by
  intro row listed
  obtain rfl := List.mem_singleton.mp listed
  refine ⟨rfl, ?_⟩
  simp [Spillable, RowCodec.encodeRow, ValueFormat.encodeValue, RowCodec.rowFormat,
    RowCodec.valueFormat]

/-- The nested loop pairs a zero with a negative zero; no other operator does. -/
theorem crossed_zeros_unmatched :
    findEquiJoin sameDegrees 1 readings = some (0, 0) ∧
    nestedLoopJoin readings (some sameDegrees) .inner 1 [[.real 0]]
        [[.real 0x8000000000000000]] =
      .ok [[.real 0, .real 0x8000000000000000]] ∧
    graceHashJoin readings (some sameDegrees) .inner 1 List.length 1 0 0 [[.real 0]]
        [[.real 0x8000000000000000]] =
      .ok [] ∧
    batchHashJoin readings (some sameDegrees) .inner 1 (typesOf readings) 0 0 [[[.real 0]]]
        [[[.real 0x8000000000000000]]] =
      .ok [] ∧
    parallelHashJoin readings 1 sameDegrees none 0 0 [0, 1] [[[.real 0]]]
        [[.real 0x8000000000000000]] =
      [] ∧
    indexNestedLoopJoin readings (some sameDegrees) .inner 1 (readings.take 1)
        (AccessPaths.measured 0x8000000000000000) { table := some "a", name := "degrees" } 7
        [[.real 0]] =
      .ok [] := by
  refine ⟨by decide, by decide, ?_, by decide, by decide, by decide⟩
  have apart : EvaluatesMet readings sameDegrees 0 0 [[.real 0]] [[.real 0x8000000000000000]] := by
    intro row listed inner innerListed met
    obtain rfl := List.mem_singleton.mp listed
    obtain rfl := List.mem_singleton.mp innerListed
    exact absurd met (by decide)
  obtain ⟨rows, ran, same⟩ :=
    @graceHashJoin_ok _ readings 1 .inner sameDegrees [[.real 0]] [[.real 0x8000000000000000]]
      0 0 1 List.length (spilled_degrees _) (spilled_degrees _) apart
  rw [ran]
  exact congrArg Except.ok (List.perm_nil.mp (same.trans (by decide)))

end PrehniteDB.Joins
