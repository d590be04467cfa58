import PrehniteDB.JoinAgreement

namespace PrehniteDB.Joins

open ReadPaths (JoinKind OnShape)
open AccessPaths (Schema)

/-!
# The join operators as they are pulled

The read paths of a statement know an `ON` predicate by its shape and a verdict on
each combined row.  Under the predicate an expression stands for, the analysis
picks the same join, and an operator pulled to its end answers what the drained
operator answers.
-/

variable {Query : Type}

/-! ## The shape of a predicate -/

/-- The position of the column that an expression is. -/
def columnAt (scope : Scope) : Expr Query → Option Nat
  | .column ref => (scope.resolve ref).toOption
  | _ => none

def onShape (scope : Scope) : Expr Query → OnShape
  | .binary (.logic .and) left right => .both (onShape scope left) (onShape scope right)
  | .binary (.comparison .eq) left right => .equal (columnAt scope left) (columnAt scope right)
  | _ => .other

/-- What the analysis of an equality looks at is where its sides stand. -/
theorem equiSides_shape
    (scope : Scope)
    (leftLen : Nat)
    (left right : Expr Query) :
    (equiSides scope leftLen left right).map
        (fun (key, keyAt, inner) => ((scope.resolve key).toOption, keyAt, inner)) =
      (ReadPaths.equiJoinColumns leftLen (typesOf scope) (columnAt scope left)
        (columnAt scope right)).map fun (keyAt, inner) => (some keyAt, keyAt, inner) := by
  have alone (position : Option Nat) :
      ReadPaths.equiJoinColumns leftLen (typesOf scope) position none = none := by
    cases position <;> rfl
  cases left with
  | column leftRef =>
      cases right with
      | column rightRef =>
          simp only [equiSides, ReadPaths.equiJoinColumns, columnAt]
          cases leftResolved : scope.resolve leftRef with
          | error error => rfl
          | ok leftAt =>
              cases rightResolved : scope.resolve rightRef with
              | error error => rfl
              | ok rightAt =>
                  simp only [Except.toOption, Option.bind_eq_bind, Option.bind_some, typesOf,
                    List.getElem?_map]
                  split_ifs <;> simp_all
      | _ => exact (Option.map_eq_none_iff.mpr (alone _)).symm
  | _ => rfl

theorem equiJoinColumns_shape
    (scope : Scope)
    (leftLen : Nat)
    (left right : Expr Query) :
    equiJoinColumns scope leftLen left right =
      ReadPaths.equiJoinColumns leftLen (typesOf scope) (columnAt scope left)
        (columnAt scope right) := by
  have same := congrArg (Option.map fun found => (found.2.1, found.2.2))
    (equiSides_shape scope leftLen left right)
  simp only [Option.map_map] at same
  exact same.trans Option.map_id'

theorem findEquiJoin_shape (on : Expr Query) (leftLen : Nat) (scope : Scope) :
    findEquiJoin on leftLen scope =
      ReadPaths.findEquiJoin leftLen (typesOf scope) (onShape scope on) := by
  unfold findEquiJoin
  induction on using findEquality.induct with
  | case1 left right leftHypothesis rightHypothesis =>
      rw [findEquality, leftHypothesis, rightHypothesis, onShape, ReadPaths.findEquiJoin]
      cases ReadPaths.findEquiJoin leftLen (typesOf scope) (onShape scope left) <;> rfl
  | case2 left right =>
      exact equiJoinColumns_shape scope leftLen left right
  | case3 on conjunction equality =>
      rw [findEquality, onShape]
      · rfl
      · exact conjunction
      · exact equality
      · exact conjunction
      · exact equality

/-- The read path's table has the indexes of the schema, in its order. -/
def Lists (table : ReadPaths.Table Value) (joined : Schema) : Prop :=
  table.indexes.map (fun index => (index.columns, index.root)) =
    joined.indexes.map fun index => (index.columns, index.root)

theorem Lists.find
    {table : ReadPaths.Table Value}
    {joined : Schema}
    (lists : Lists table joined)
    (inner : Nat) :
    (table.indexes.find? fun index => index.columns.head? = some inner).map
        ReadPaths.IndexTree.root =
      (joined.indexes.find? fun index => index.columns.head? = some inner).map
        AccessPaths.Index.root := by
  have found := congrArg
    (fun listed => (listed.find? fun entry => entry.1.head? = some inner).map Prod.snd) lists
  simp only [List.find?_map, Option.map_map] at found
  exact found

theorem equiJoinIndex_shape
    (scope : Scope)
    (leftLen : Nat)
    {joined : Schema}
    {table : ReadPaths.Table Value}
    (lists : Lists table joined)
    (left right : Expr Query) :
    (equiJoinIndex scope leftLen joined left right).map
        (fun (key, root) => ((scope.resolve key).toOption, root)) =
      (ReadPaths.equiJoinIndex leftLen (typesOf scope) table (columnAt scope left)
        (columnAt scope right)).map fun (keyAt, root) => (some keyAt, root) := by
  have sides := equiSides_shape scope leftLen left right
  unfold equiJoinIndex ReadPaths.equiJoinIndex
  cases found : equiSides scope leftLen left right with
  | none =>
      rw [found] at sides
      rw [Option.map_eq_none_iff.mp sides.symm]
      rfl
  | some side =>
      obtain ⟨key, keyAt, inner⟩ := side
      rw [found] at sides
      obtain ⟨⟨leftAt, innerAt⟩, columns, same⟩ := Option.map_eq_some_iff.mp sides.symm
      simp only [Prod.mk.injEq] at same
      obtain ⟨resolved, rfl, rfl⟩ := same
      rw [columns]
      have roots := lists.find innerAt
      simp only [Option.bind_eq_bind, Option.bind_some]
      cases ours : joined.indexes.find? fun index => index.columns.head? = some innerAt <;>
        cases theirs : table.indexes.find? fun index => index.columns.head? = some innerAt <;>
          simp_all

/-- The join that an index serves is found from the shape too. -/
theorem findIndexJoin_shape
    (on : Expr Query)
    (leftLen : Nat)
    (scope : Scope)
    {joined : Schema}
    {table : ReadPaths.Table Value}
    (lists : Lists table joined) :
    (findIndexJoin on leftLen scope joined).map
        (fun (key, root) => ((scope.resolve key).toOption, root)) =
      (ReadPaths.findIndexJoin leftLen (typesOf scope) table (onShape scope on)).map
        fun (keyAt, root) => (some keyAt, root) := by
  unfold findIndexJoin
  induction on using findEquality.induct with
  | case1 left right leftHypothesis rightHypothesis =>
      rw [findEquality, onShape, ReadPaths.findIndexJoin, Option.map_or, leftHypothesis,
        rightHypothesis, ← Option.map_or]
      cases ReadPaths.findIndexJoin leftLen (typesOf scope) table (onShape scope left) <;> rfl
  | case2 left right =>
      exact equiJoinIndex_shape scope leftLen lists left right
  | case3 on conjunction equality =>
      rw [findEquality, onShape]
      · rfl
      · exact conjunction
      · exact equality
      · exact conjunction
      · exact equality

/-! ## The operators -/

/-- What the executor knows of a `Value`. -/
def valueEncoding : ReadPaths.Encoding Value where
  null := .null
  isNull := Value.isNull
  equal := Value.equal
  encodeIndexValue := encodeIndexValue

/-- The join that a read path makes of a kind, a predicate and an inner width. -/
structure Pulls
    (scope : Scope)
    (on : Option (Expr Query))
    (kind : JoinKind)
    (rightWidth : Nat)
    (join : ReadPaths.Join Value) : Prop where
  kind : join.kind = kind
  width : join.table.columns.length = rightWidth
  matching : ∀ combined, join.matching combined = passesFilter on scope combined

variable
  {scope : Scope}
  {on : Option (Expr Query)}
  {kind : JoinKind}
  {rightWidth : Nat}
  {join : ReadPaths.Join Value}

/-- The predicate of an expression has its shape and its verdicts. -/
theorem pulls_expression
    (shape : join.on = on.map fun on => ⟨onShape scope on, passesFilter (some on) scope⟩) :
    Pulls scope on join.kind join.table.columns.length join where
  kind := rfl
  width := rfl
  matching combined := by
    rw [ReadPaths.Join.matching, shape]
    cases on <;> rfl

theorem eachLeft_eq (contribution : Row → Except Error (List Row)) (left : List Row) :
    eachLeft contribution left = (left.mapM contribution).map List.flatten := by
  induction left with
  | nil => rfl
  | cons row rest inductionHypothesis =>
      rw [eachLeft, inductionHypothesis, List.mapM_cons]
      cases contribution row with
      | error error => rfl
      | ok here => cases rest.mapM contribution <;> rfl

/-- A left row of a join that keeps the matches. -/
theorem pair_keeps
    (pulls : Pulls scope on kind rightWidth join)
    (kinds : kind ≠ .semi ∧ kind ≠ .anti)
    (left : Row)
    (matched : Bool)
    (right : List Row) :
    (ReadPaths.pair valueEncoding join left matched right).answers =
      (pairs scope on left right).map fun found =>
        if matched then found else padded kind rightWidth left found := by
  induction right generalizing matched with
  | nil =>
      rw [ReadPaths.pair, pulls.kind, pulls.width, pairs]
      cases kind with
      | semi => exact absurd rfl kinds.1
      | anti => exact absurd rfl kinds.2
      | left => cases matched <;> rfl
      | inner => cases matched <;> rfl
      | cross => cases matched <;> rfl
  | cons inner rest inductionHypothesis =>
      rw [ReadPaths.pair, pulls.matching, pairs]
      cases verdict : passesFilter on scope (left ++ inner) with
      | error error => rfl
      | ok keep =>
          cases keep with
          | false =>
              refine (inductionHypothesis matched).trans ?_
              cases pairs scope on left rest <;> rfl
          | true =>
              have kept :
                  (PullStream.emit (left ++ inner)
                      (ReadPaths.pair valueEncoding join left true rest)).answers =
                    ((pairs scope on left rest).map ((left ++ inner) :: ·)).map fun found =>
                      if matched then found else padded kind rightWidth left found := by
                rw [PullStream.answers, inductionHypothesis true]
                cases pairs scope on left rest with
                | error error => rfl
                | ok later => cases matched <;> simp [Except.map, padded]
              rw [pulls.kind]
              have single :
                  (pairs scope on left rest >>= fun later => pure ((left ++ inner) :: later)) =
                    (pairs scope on left rest).map ((left ++ inner) :: ·) := by
                cases pairs scope on left rest <;> rfl
              cases kind with
              | semi => exact absurd rfl kinds.1
              | anti => exact absurd rfl kinds.2
              | inner => exact kept.trans (congrArg _ single.symm)
              | left => exact kept.trans (congrArg _ single.symm)
              | cross => exact kept.trans (congrArg _ single.symm)

theorem pair_semi
    (pulls : Pulls scope on .semi rightWidth join)
    (left : Row)
    (right : List Row) :
    (ReadPaths.pair valueEncoding join left false right).answers =
      (anyMatch scope on left right).map fun found => if found then [left] else [] := by
  induction right with
  | nil =>
      rw [ReadPaths.pair, pulls.kind]
      rfl
  | cons inner rest inductionHypothesis =>
      rw [ReadPaths.pair, pulls.matching, anyMatch, pulls.kind]
      cases passesFilter on scope (left ++ inner) with
      | error error => rfl
      | ok keep =>
          cases keep with
          | false => exact inductionHypothesis
          | true => rfl

theorem pair_anti
    (pulls : Pulls scope on .anti rightWidth join)
    (left : Row)
    (right : List Row) :
    (ReadPaths.pair valueEncoding join left false right).answers =
      (anyMatch scope on left right).map fun found => if found then [] else [left] := by
  induction right with
  | nil =>
      rw [ReadPaths.pair, pulls.kind]
      rfl
  | cons inner rest inductionHypothesis =>
      rw [ReadPaths.pair, pulls.matching, anyMatch, pulls.kind]
      cases passesFilter on scope (left ++ inner) with
      | error error => rfl
      | ok keep =>
          cases keep with
          | false => exact inductionHypothesis
          | true => rfl

theorem pair_answers
    (pulls : Pulls scope on kind rightWidth join)
    (left : Row)
    (right : List Row) :
    (ReadPaths.pair valueEncoding join left false right).answers =
      nestedLoopRow scope on kind rightWidth right left := by
  cases kind with
  | semi =>
      rw [pair_semi pulls, nestedLoopRow]
      cases anyMatch scope on left right <;> rfl
  | anti =>
      rw [pair_anti pulls, nestedLoopRow]
      cases anyMatch scope on left right <;> rfl
  | inner => exact pair_keeps pulls ⟨nofun, nofun⟩ left false right
  | left => exact pair_keeps pulls ⟨nofun, nofun⟩ left false right
  | cross => exact pair_keeps pulls ⟨nofun, nofun⟩ left false right

variable
  {lefts rights : ReadPaths.Stream Row}
  {left right : List Row}

/-- The nested loop join of two inputs that do not fail. -/
theorem nestedLoopJoin_answers
    (pulls : Pulls scope on kind rightWidth join)
    (leftAnswered : lefts.answers = .ok left)
    (rightAnswered : rights.answers = .ok right) :
    (ReadPaths.nestedLoopJoin valueEncoding join lefts rights).answers =
      nestedLoopJoin scope on kind rightWidth left right := by
  rw [ReadPaths.nestedLoopJoin, PullStream.answers_drain, rightAnswered]
  refine (PullStream.answers_bind leftAnswered _).trans ?_
  simp only [pair_answers pulls]
  exact (eachLeft_eq _ _).symm

theorem column_eq (row : Row) (position : Nat) :
    ReadPaths.column valueEncoding row position = column row position :=
  (List.getD_eq_getElem?_getD ..).symm

/-- The index join, where a lookup finds what the index access of the table answers. -/
theorem indexNestedLoopJoin_answers
    {joined : Schema}
    {table : AccessPaths.Table joined}
    {reader : ReadPaths.Reader}
    {leftScope : Scope}
    {key : ColumnRef}
    {keyAt : Nat}
    {root : UInt32}
    (pulls : Pulls scope on kind rightWidth join)
    (kinds : kind ≠ .semi ∧ kind ≠ .anti)
    (leftAnswered : lefts.answers = .ok left)
    (resolved : leftScope.resolve key = .ok keyAt)
    (looked : ∀ value,
      (ReadPaths.lookup valueEncoding reader join.table root value).answers =
        lookup table root value) :
    (ReadPaths.indexNestedLoopJoin valueEncoding reader join keyAt root lefts).answers =
      indexNestedLoopJoin scope on kind rightWidth leftScope table key root left := by
  refine (PullStream.answers_bind leftAnswered _).trans ?_
  rw [indexNestedLoopJoin, eachLeft_eq]
  refine congrArg (Except.map List.flatten) (congrArg (List.mapM · left) (funext fun row => ?_))
  rw [PullStream.answers_drain, looked, column_eq]
  have keyValue : eval leftScope row (.column key : Expr Query) = .ok (column row keyAt) := by
    rw [eval, resolved]
    rfl
  rw [keyValue]
  refine congrArg (lookup table root (column row keyAt) >>= ·) (funext fun inner => ?_)
  exact pair_keeps pulls kinds row false inner

theorem bucket_sameKey (probeCol buildCol : Nat) (row : Row) (inner : List Row) :
    ReadPaths.bucket valueEncoding probeCol buildCol row inner =
      inner.filter (sameKey probeCol buildCol row) := by
  simp only [ReadPaths.bucket, column_eq]
  change (if (column row probeCol).isNull = true then [] else _) = _
  split_ifs with null
  · refine (List.filter_eq_nil_iff.mpr fun other _ => ?_).symm
    simp [sameKey, null]
  · refine List.filter_congr fun other _ => ?_
    simp [sameKey, null, eq_comm, valueEncoding]

/-- One partition of the grace join. -/
theorem hashJoin_answers
    {probeCol buildCol : Nat}
    (pulls : Pulls scope on kind rightWidth join)
    (kinds : kind ≠ .semi ∧ kind ≠ .anti) :
    ((PullStream.ofList left).bind fun row =>
        ReadPaths.pair valueEncoding join row false
          (ReadPaths.bucket valueEncoding probeCol buildCol row right)).answers =
      hashJoin scope on kind rightWidth probeCol buildCol left right := by
  rw [hashJoin_eq_probe, probe, eachLeft_eq, PullStream.answers_bind (PullStream.answers_ofList _)]
  refine congrArg (Except.map List.flatten) (congrArg (List.mapM · left) (funext fun row => ?_))
  rw [bucket_sameKey]
  exact pair_keeps pulls kinds row false _

theorem eachPartition_eq
    {hasher : List UInt8 → Nat}
    {leftWidth probeCol buildCol : Nat}
    (leftSpilled : Spilled leftWidth left)
    (rightSpilled : Spilled rightWidth right)
    (partitions : List Nat) :
    graceHashJoin.eachPartition scope on kind rightWidth hasher leftWidth probeCol buildCol left
        right partitions =
      (partitions.mapM fun partition =>
        hashJoin scope on kind rightWidth probeCol buildCol
          (left.filter fun row => partitionFor hasher (column row probeCol) = partition)
          (right.filter fun row => partitionFor hasher (column row buildCol) = partition)).map
        List.flatten := by
  induction partitions with
  | nil => rfl
  | cons partition rest inductionHypothesis =>
      rw [graceHashJoin.eachPartition, inductionHypothesis,
        spilledHashJoin_eq (leftSpilled.filter _) (rightSpilled.filter _), List.mapM_cons]
      generalize (rest.mapM fun partition => (_ : Except Error (List Row))) = later
      cases hashJoin scope on kind rightWidth probeCol buildCol
          (left.filter fun row => partitionFor hasher (column row probeCol) = partition)
          (right.filter fun row => partitionFor hasher (column row buildCol) = partition) with
      | error error => rfl
      | ok here => cases later <;> rfl

/-- The grace join, where the spill files hand back the rows that were written. -/
theorem graceHashJoin_answers
    {hasher : List UInt8 → Nat}
    {leftWidth probeCol buildCol : Nat}
    (pulls : Pulls scope on kind rightWidth join)
    (kinds : kind ≠ .semi ∧ kind ≠ .anti)
    (parted : ∀ value, (join.partitionFor value : Nat) = partitionFor hasher value)
    (leftAnswered : lefts.answers = .ok left)
    (rightAnswered : rights.answers = .ok right)
    (leftSpilled : Spilled leftWidth left)
    (rightSpilled : Spilled rightWidth right) :
    (ReadPaths.graceHashJoin valueEncoding join probeCol buildCol lefts rights).answers =
      graceHashJoin scope on kind rightWidth hasher leftWidth probeCol buildCol left right := by
  have spilled (partition : Fin 16) (position : Nat) (rows : List Row) :
      (rows.filter fun row =>
          join.partitionFor (ReadPaths.column valueEncoding row position) = partition) =
        rows.filter fun row => partitionFor hasher (column row position) = partition := by
    refine List.filter_congr fun row _ => ?_
    rw [column_eq, ← parted]
    exact decide_eq_decide.mpr Fin.val_inj.symm
  rw [ReadPaths.graceHashJoin, PullStream.answers_drain, rightAnswered]
  refine (PullStream.answers_drain lefts _).trans ?_
  rw [leftAnswered]
  refine (PullStream.answers_bind (PullStream.answers_ofList _) _).trans ?_
  simp only [spilled, hashJoin_answers pulls kinds]
  rw [graceHashJoin, eachPartition_eq leftSpilled rightSpilled, hashPartitions,
    ← List.map_coe_finRange_eq_range, List.mapM_map]
  rfl

end PrehniteDB.Joins
